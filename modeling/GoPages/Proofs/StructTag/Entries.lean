import Mathlib.Data.List.TakeWhile
import GoPages.Proofs.Literal.Spelling
import GoPages.Proofs.Text.Pieces
import GoPages.StructTag

/-!
# Tags are looked up

A tag that is written from keys and values is looked up as a list of them: what is under a key is
the value of its first entry (`StructTag.lookup_written`). Two readers have to agree for this. The
one that looks for the closing quote passes over the character behind a backslash
(`StructTag.closeQuote?_escaped`), and the one that reads the literal between the quotes gives the
value (`StructTag.value?_literal`).

What follows the entries of a tag cannot change what is under their keys.
-/

namespace GoPages.StructTag

/-- The text may be the key of a tag. -/
structure IsKey (key : List Char) : Prop where
  ne_nil : key ≠ []
  chars : ∀ c ∈ key, ' ' < c ∧ c ≠ ':' ∧ c ≠ '"' ∧ c ≠ '\x7f'

/-- A key and its value, and the number of spaces before them in a tag. -/
structure Entry where
  spaces : Nat
  key : String
  value : String
  isKey : IsKey key.toList

/-- The characters that have a meaning of their own between the quotes of a value. -/
def quoteChars : List Char := ['\\', '"']

/-- The literal of a value. -/
def literal (value : List Char) : List Char := '"' :: (Text.escaped quoteChars value ++ ['"'])

/-- The text of an entry. -/
def Entry.text (e : Entry) : List Char :=
  List.replicate e.spaces ' ' ++ (e.key.toList ++ ':' :: literal e.value.toList)

/-- The tag with the entries. -/
def written (entries : List Entry) : String := String.ofList (entries.flatMap Entry.text)

/-! ### Keys -/

/-- The characters of keys are those above the blank, without colons and quotes. -/
private theorem isKeyChar_iff {c : Char} :
    isKeyChar c ↔ ' ' < c ∧ c ≠ ':' ∧ c ≠ '"' ∧ c ≠ '\x7f' := by
  simp [isKeyChar, and_assoc]

private theorem isKey_iff {key : List Char} : IsKey key ↔ key ≠ [] ∧ key.all isKeyChar := by
  rw [List.all_eq_true]
  exact ⟨fun h => ⟨h.ne_nil, fun c hc => isKeyChar_iff.mpr (h.chars c hc)⟩,
    fun h => ⟨h.1, fun c hc => isKeyChar_iff.mp (h.2 c hc)⟩⟩

/-! ### Values -/

private theorem mem_quoteChars_iff {c : Char} : c ∈ quoteChars ↔ c = '\\' ∨ c = '"' := by
  rw [quoteChars, List.mem_cons, List.mem_singleton]

/-- A character that is neither a backslash nor a quote is passed over. -/
private theorem closeQuote?_cons {c : Char} (hback : c ≠ '\\') (hquote : c ≠ '"') (cs : List Char) :
    closeQuote? (c :: cs) = (closeQuote? cs).map fun (body, rest) => (c :: body, rest) := by
  rw [closeQuote?.eq_def]
  split <;> simp_all

/-- **The closing quote** of a value is the one that is written behind it. -/
theorem closeQuote?_escaped (value rest : List Char) :
    closeQuote? (Text.escaped quoteChars value ++ '"' :: rest) =
      some (Text.escaped quoteChars value ++ ['"'], rest) := by
  induction value with
  | nil => rfl
  | cons c value ih =>
    by_cases hc : c ∈ quoteChars
    · rw [Text.escaped_cons_of_mem hc, List.cons_append, List.cons_append, closeQuote?, ih]
      rfl
    · obtain ⟨hback, hquote⟩ := not_or.mp (mem_quoteChars_iff.not.mp hc)
      rw [Text.escaped_cons_of_notMem hc, List.cons_append, closeQuote?_cons hback hquote, ih]
      rfl

/-- A value with backslashes before its quotes is read as itself. -/
private theorem reads_escaped (value : List Char) :
    Literal.Reads (Text.escaped quoteChars value) value := by
  induction value with
  | nil => exact .nil
  | cons c value ih =>
    by_cases hc : c ∈ quoteChars
    · have hletter : (c, c) ∈ Literal.letters := by
        rcases mem_quoteChars_iff.mp hc with rfl | rfl <;> decide
      rw [Text.escaped_cons_of_mem hc]
      exact .escape (.letter hletter) ih
    · rw [Text.escaped_cons_of_notMem hc]
      exact .verbatim (not_or.mp (mem_quoteChars_iff.not.mp hc)).1 ih

/-- The literal of a value has the value. -/
theorem value?_literal (value : List Char) : Literal.value? (literal value) = some value :=
  (Literal.value?_quoted _).trans (reads_escaped value).interpreted?_eq

/-! ### Entries -/

/-- An entry is the first pair of a tag that starts with it. -/
theorem pair?_text (e : Entry) (rest : List Char) :
    pair? (e.text ++ rest) = some (⟨e.key.toList, literal e.value.toList⟩, rest) := by
  have hchars := List.all_eq_true.mp (isKey_iff.mp e.isKey).2
  -- spaces, the key, the colon and the quoted value are cut off one after the other
  have hspaces : (e.text ++ rest).dropWhile (· == ' ') =
      e.key.toList ++ ':' :: (literal e.value.toList ++ rest) := by
    obtain ⟨c, key, hkey⟩ := List.exists_cons_of_ne_nil e.isKey.ne_nil
    have hc : c ≠ ' ' := by
      rintro rfl
      exact absurd (e.isKey.chars ' ' (hkey ▸ List.mem_cons_self)).1 (by decide)
    have hreplicate : ∀ d ∈ List.replicate e.spaces ' ', (d == ' ') = true := fun d hd =>
      beq_iff_eq.mpr (List.eq_of_mem_replicate hd)
    rw [Entry.text, List.append_assoc, List.dropWhile_append_of_pos hreplicate, List.append_assoc,
      hkey, List.cons_append, List.dropWhile_cons_of_neg (by simpa using hc)]
    rfl
  have hkey : (e.key.toList ++ ':' :: (literal e.value.toList ++ rest)).takeWhile isKeyChar =
      e.key.toList := by
    rw [List.takeWhile_append_of_pos hchars, List.takeWhile_cons_of_neg (by decide),
      List.append_nil]
  have hafter : (e.key.toList ++ ':' :: (literal e.value.toList ++ rest)).dropWhile isKeyChar =
      ':' :: (literal e.value.toList ++ rest) := by
    rw [List.dropWhile_append_of_pos hchars, List.dropWhile_cons_of_neg (by decide)]
  have hliteral : ':' :: (literal e.value.toList ++ rest) =
      [':', '"'] ++ (Text.escaped quoteChars e.value.toList ++ '"' :: rest) := by
    simp [literal]
  rw [pair?, hspaces, hkey, hafter, if_neg (by simpa using e.isKey.ne_nil), pairOf?,
    Text.strip?_eq_some_iff.mpr hliteral, Option.bind_eq_bind, Option.bind_some,
    closeQuote?_escaped]
  rfl

/-- What is under the key of an entry is its value; what is under another key stands behind it. -/
theorem value?_text_append (key : List Char) (e : Entry) (rest : List Char) :
    value? key (e.text ++ rest) =
      if e.key.toList = key then some e.value.toList else value? key rest := by
  rw [value?]
  split
  · next hnone =>
    rw [pair?_text] at hnone
    cases hnone
  · next hsome =>
    rw [pair?_text] at hsome
    cases hsome
    rw [value?_literal]

/-- Entries with other keys are passed over. -/
private theorem value?_flatMap_append {key : List Char} {entries : List Entry}
    (h : ∀ e ∈ entries, e.key.toList ≠ key) (rest : List Char) :
    value? key (entries.flatMap Entry.text ++ rest) = value? key rest := by
  induction entries with
  | nil => rfl
  | cons e entries ih =>
    obtain ⟨he, hentries⟩ := List.forall_mem_cons.mp h
    rw [List.flatMap_cons, List.append_assoc, value?_text_append, if_neg he, ih hentries]

private theorem value?_nil (key : List Char) : value? key [] = none := by
  rw [value?]
  rfl

/-! ### Tags -/

/-- A key without an entry is not found. -/
private theorem lookup_written_of_notMem {entries : List Entry} {key : String}
    (h : ∀ e ∈ entries, e.key ≠ key) : lookup (written entries) key = none := by
  have hkey : ∀ e ∈ entries, e.key.toList ≠ key.toList := fun e he heq =>
    h e he (String.toList_inj.mp heq)
  have hvalue := value?_flatMap_append hkey []
  rw [List.append_nil, value?_nil] at hvalue
  rw [lookup, written, String.toList_ofList, hvalue]
  rfl

/-- The first entry with a key gives its value, whatever follows the entries. -/
theorem lookup_written_append {before : List Entry} {e : Entry}
    (h : ∀ b ∈ before, b.key ≠ e.key) (after : List Entry) (further : String) :
    lookup (written (before ++ e :: after) ++ further) e.key = some e.value := by
  have hkey : ∀ b ∈ before, b.key.toList ≠ e.key.toList := fun b hb heq =>
    h b hb (String.toList_inj.mp heq)
  rw [lookup, written, String.toList_append, String.toList_ofList, List.flatMap_append,
    List.flatMap_cons, List.append_assoc, List.append_assoc, value?_flatMap_append hkey,
    value?_text_append, if_pos rfl, Option.map_some, String.ofList_toList]

/-- The name under a key is the beginning of the value. -/
private theorem name_eq_map_lookup (tag key : String) :
    name tag key =
      (lookup tag key).map fun value => String.ofList (Text.before ',' value.toList) := by
  rw [name, lookup, Option.map_map]
  exact congrArg (Option.map · _) (funext fun cs => by rw [Function.comp, String.toList_ofList])

/-- The first text ends before the first separator of the second one, if it has one. -/
def EndsBefore (sep : Char) (start cs : List Char) : Prop :=
  sep ∉ start ∧ (cs = start ∨ ∃ rest, cs = start ++ sep :: rest)

/-- It ends before the first comma. -/
private theorem endsBefore_before (sep : Char) (cs : List Char) :
    EndsBefore sep (Text.before sep cs) cs := by
  refine ⟨fun hmem => ?_, ?_⟩
  · simpa using List.mem_takeWhile_imp hmem
  have hcs : cs = Text.before sep cs ++ cs.dropWhile (· != sep) :=
    List.takeWhile_append_dropWhile.symm
  cases hrest : cs.dropWhile (· != sep) with
  | nil =>
    rw [hrest, List.append_nil] at hcs
    exact .inl hcs
  | cons c rest =>
    -- the separator is the first character that is not taken
    have hc := List.head?_dropWhile_not (· != sep) cs
    rw [hrest] at hc
    obtain rfl : c = sep := by simpa using hc
    rw [hrest] at hcs
    exact .inr ⟨rest, hcs⟩

/-- **A tag is looked up as the list of its entries.** Under the key of an entry is the value of the
first one with this key, whatever follows the entries, and its name is this value up to the first
comma. Under any other key is nothing, if nothing follows the entries. -/
theorem lookup_written (entries : List Entry) :
    (∀ before e after, entries = before ++ e :: after → (∀ b ∈ before, b.key ≠ e.key) →
      ∀ further : String, lookup (written entries ++ further) e.key = some e.value ∧
        ∃ start, name (written entries ++ further) e.key = some start ∧
          EndsBefore ',' start.toList e.value.toList) ∧
    ∀ key, (∀ e ∈ entries, e.key ≠ key) →
      lookup (written entries) key = none ∧ name (written entries) key = none := by
  constructor
  · rintro before e after rfl hfirst further
    have hlookup := lookup_written_append hfirst after further
    refine ⟨hlookup, String.ofList (Text.before ',' e.value.toList), ?_, ?_⟩
    · rw [name_eq_map_lookup, hlookup]
      rfl
    · rw [String.toList_ofList]
      exact endsBefore_before ',' e.value.toList
  · intro key hkey
    have hlookup := lookup_written_of_notMem hkey
    refine ⟨hlookup, ?_⟩
    rw [name_eq_map_lookup, hlookup]
    rfl

/-- A value with a quote, and a backslash at its end. -/
def jsonEntry : Entry := ⟨0, "json", "a\"\\", isKey_iff.mpr (by decide)⟩

/-- The first value under a key that occurs twice. -/
def pathEntry : Entry := ⟨2, "path", "id,min", isKey_iff.mpr (by decide)⟩

/-- The second value under this key, without a space before it. -/
def otherEntry : Entry := ⟨0, "path", "other", isKey_iff.mpr (by decide)⟩

/-- The text of these entries, and a key without a value behind them. -/
def pathTag : String := "json:\"a\\\"\\\\\"  path:\"id,min\"path:\"other\" query"

/-- A key with two entries has the first value, and what follows the entries is not found. -/
theorem lookup_written_pathEntry :
    written [jsonEntry, pathEntry, otherEntry] ++ " query" = pathTag ∧
      lookup pathTag "path" = some "id,min" ∧
      (∃ start, name pathTag "path" = some start ∧
        EndsBefore ',' start.toList "id,min".toList) ∧
      lookup (written [jsonEntry, pathEntry, otherEntry]) "query" = none := by
  obtain ⟨hfirst, hnone⟩ := lookup_written [jsonEntry, pathEntry, otherEntry]
  have htext : written [jsonEntry, pathEntry, otherEntry] ++ " query" = pathTag := by
    decide +kernel
  obtain ⟨hpath, hname⟩ := hfirst [jsonEntry] pathEntry [otherEntry] rfl (by decide) " query"
  rw [htext] at hpath hname
  exact ⟨htext, hpath, hname, (hnone "query" (by decide)).1⟩

end GoPages.StructTag
