import GoPages.Proofs.Literal.Digits

/-!
# How texts are written in string literals

Between double quotes, a text is written character by character: as it is, or by an escape.
`Literal.Reads` says which texts denote which; it does not say how an escape is found, and a
character may have many spellings. Reading goes wrong at the first backslash that starts no escape,
or one of no character (`Literal.Breaks`).

Every text can be read, or else it breaks (`Literal.reads_or_breaks`). So a literal has the value
that it is written for and no other one, and it has none exactly if it breaks
(`Literal.unquote_iff`).
-/

namespace GoPages

namespace Literal

/-! ### Escapes -/

/-- The letters that stand for a character after a backslash. -/
def letters : List (Char × Char) :=
  [('a', '\x07'), ('b', '\x08'), ('f', '\x0c'), ('n', '\n'), ('r', '\r'), ('t', '\t'),
    ('v', '\x0b'), ('\\', '\\'), ('"', '"'), ('\'', '\'')]

/-- The letters that stand before hexadecimal digits, and how many digits follow. -/
def hexLetters : List (Char × Nat) := [('x', 2), ('u', 4), ('U', 8)]

/-- The text after a backslash is an escape, and stands for the number of a character. -/
inductive IsEscape : List Char → Nat → Prop where
  | letter {l c : Char} (h : (l, c) ∈ letters) : IsEscape [l] c.toNat
  | hexadecimal {l : Char} {ds : List Char} {n : Nat} (hl : (l, ds.length) ∈ hexLetters)
      (hds : IsNumeral 16 ds n) : IsEscape (l :: ds) n
  | octal {ds : List Char} {n : Nat} (hlength : ds.length = 3) (hds : IsNumeral 8 ds n) :
      IsEscape ds n

/-- An escape by letter is one of the listed ones. -/
theorem letterEscape?_eq_some_iff {l c : Char} : letterEscape? l = some c ↔ (l, c) ∈ letters := by
  constructor
  · intro h
    rw [letterEscape?.eq_def] at h
    split at h <;> cases h <;> decide
  · intro h
    simp only [letters, List.mem_cons, Prod.mk.injEq, List.not_mem_nil, or_false] at h
    rcases h with ⟨rfl, rfl⟩ | ⟨rfl, rfl⟩ | ⟨rfl, rfl⟩ | ⟨rfl, rfl⟩ | ⟨rfl, rfl⟩ | ⟨rfl, rfl⟩ |
      ⟨rfl, rfl⟩ | ⟨rfl, rfl⟩ | ⟨rfl, rfl⟩ | ⟨rfl, rfl⟩ <;> rfl

/-- A letter before hexadecimal digits does not stand for a character itself. -/
theorem hexLength?_of_mem {l : Char} {count : Nat} (h : (l, count) ∈ hexLetters) :
    letterEscape? l = none ∧ hexLength? l = some count := by
  simp only [hexLetters, List.mem_cons, Prod.mk.injEq, List.not_mem_nil, or_false] at h
  rcases h with ⟨rfl, rfl⟩ | ⟨rfl, rfl⟩ | ⟨rfl, rfl⟩ <;> exact ⟨rfl, rfl⟩

private theorem mem_of_hexLength? {l : Char} {count : Nat} (h : hexLength? l = some count) :
    (l, count) ∈ hexLetters := by
  rw [hexLength?.eq_def] at h
  split at h <;> cases h <;> decide

/-- An octal digit is no letter of an escape. -/
theorem letterEscape?_of_isDigit {c : Char} {d : Nat} (h : IsDigit 8 c d) :
    letterEscape? c = none ∧ hexLength? c = none := by
  have hdigits : ∀ d < 8, (letterEscape? d.digitChar = none ∧ hexLength? d.digitChar = none) ∧
      letterEscape? d.digitChar.toUpper = none ∧ hexLength? d.digitChar.toUpper = none := by decide
  obtain ⟨hd, rfl | rfl⟩ := h
  · exact (hdigits d hd).1
  · exact (hdigits d hd).2

private theorem charOf?_toNat (a : Char) : charOf? a.toNat = some a :=
  (dif_pos a.valid).trans rfl

private theorem toNat_of_charOf? {n : Nat} {a : Char} (h : charOf? n = some a) : n = a.toNat := by
  obtain ⟨hn, ha⟩ := Option.dite_none_right_eq_some.mp h
  obtain rfl := Option.some.inj ha
  rfl

/-- A number has no character if it is not a valid code point. -/
private theorem charOf?_eq_none_iff {n : Nat} : charOf? n = none ↔ ¬ n.isValidChar :=
  dite_eq_right_iff.trans ⟨fun h hn => Option.some_ne_none _ (h hn), fun h hn => absurd hn h⟩

/-- An escape is read whatever follows it, and gives the character of its number. -/
theorem escape?_append {text : List Char} {n : Nat} (h : IsEscape text n) (rest : List Char) :
    escape? (text ++ rest) = (charOf? n).map fun a => (a, rest) := by
  cases h with
  | @letter l c h =>
    rw [List.singleton_append, escape?, letterEscape?_eq_some_iff.mpr h, charOf?_toNat]
    rfl
  | @hexadecimal l ds n hl hds =>
    obtain ⟨hletter, hlength⟩ := hexLength?_of_mem hl
    have hdigits := digits?_append hexDigit?_eq_some_iff hds 0 rest
    rw [List.cons_append, escape?, hletter, hlength]
    dsimp only
    rw [Nat.add_zero, digits?] at hdigits
    rw [hdigits, Option.bind_eq_bind, Option.bind_some]
    cases charOf? n <;> rfl
  | octal hlength hds =>
    obtain ⟨c, ds, rfl⟩ := List.exists_cons_of_length_pos (l := text) (by omega)
    obtain ⟨d, hd⟩ := hds.exists_isDigit c List.mem_cons_self
    obtain ⟨hletter, hhex⟩ := letterEscape?_of_isDigit hd
    have hdigits := digits?_append octalDigit?_eq_some_iff hds 0 rest
    rw [List.cons_append, escape?, hletter, hhex]
    dsimp only
    rw [Nat.add_zero, hlength, digits?] at hdigits
    rw [← List.cons_append, hdigits, Option.bind_eq_bind, Option.bind_some]
    cases charOf? n <;> rfl

/-- **An escape is read** where it stands. -/
theorem escape?_eq_some_iff {cs rest : List Char} {a : Char} :
    escape? cs = some (a, rest) ↔ ∃ text, cs = text ++ rest ∧ IsEscape text a.toNat := by
  constructor
  · intro h
    cases cs with
    | nil => cases h
    | cons c cs =>
      rw [escape?] at h
      split at h
      · next b hletter =>
        cases h
        exact ⟨[c], rfl, .letter (letterEscape?_eq_some_iff.mp hletter)⟩
      split at h
      · next count hlength =>
        simp only [Option.bind_eq_bind, Option.bind_eq_some_iff, Option.pure_def, Option.some.injEq,
          Prod.mk.injEq, Prod.exists] at h
        obtain ⟨n, r, hdigits, b, hb, rfl, rfl⟩ := h
        obtain ⟨ds, rfl, rfl, hds⟩ := (digits?_eq_some_iff hexDigit?_eq_some_iff).mp hdigits
        obtain rfl := toNat_of_charOf? hb
        exact ⟨c :: ds, rfl, .hexadecimal (mem_of_hexLength? hlength) hds⟩
      · simp only [Option.bind_eq_bind, Option.bind_eq_some_iff, Option.pure_def,
          Option.some.injEq, Prod.mk.injEq, Prod.exists] at h
        obtain ⟨n, r, hdigits, b, hb, rfl, rfl⟩ := h
        obtain ⟨ds, hcs, hlength, hds⟩ := (digits?_eq_some_iff octalDigit?_eq_some_iff).mp hdigits
        obtain rfl := toNat_of_charOf? hb
        exact ⟨ds, hcs, .octal hlength hds⟩
  · rintro ⟨text, rfl, htext⟩
    rw [escape?_append htext, charOf?_toNat]
    rfl

/-! ### Texts between quotes -/

/-- The text between double quotes denotes the characters: each is written as it is, or by an
escape. -/
inductive Reads : List Char → List Char → Prop where
  | nil : Reads [] []
  | verbatim {c : Char} {cs s : List Char} (hc : c ≠ '\\') (hcs : Reads cs s) :
      Reads (c :: cs) (c :: s)
  | escape {text cs s : List Char} {a : Char} (htext : IsEscape text a.toNat) (hcs : Reads cs s) :
      Reads ('\\' :: (text ++ cs)) (a :: s)

/-- A backslash before the text starts no escape, or one with `u` or `U` whose number is that of no
character. -/
def IsNoEscape (rest : List Char) : Prop :=
  (∀ text n, text <+: rest → ¬ IsEscape text n) ∨
    ∃ l ∈ ['u', 'U'], ∃ ds n, l :: ds <+: rest ∧ IsEscape (l :: ds) n ∧ ¬ n.isValidChar

/-- Reading the text from the left comes to a backslash that starts no escape of a character. -/
def Breaks (cs : List Char) : Prop :=
  ∃ front s rest, cs = front ++ '\\' :: rest ∧ Reads front s ∧ IsNoEscape rest

/-- Only an escape with `u` or `U` can have the number of no character. -/
theorem IsEscape.isValidChar_or {text : List Char} {n : Nat} (h : IsEscape text n) :
    n.isValidChar ∨ ∃ l ∈ ['u', 'U'], ∃ ds, text = l :: ds := by
  cases h with
  | @letter l c h => exact .inl c.valid
  | @hexadecimal l ds n hl hds =>
    have hlt := hds.lt
    simp only [hexLetters, List.mem_cons, Prod.mk.injEq, List.not_mem_nil, or_false] at hl
    rcases hl with ⟨rfl, hlength⟩ | ⟨rfl, -⟩ | ⟨rfl, -⟩
    · rw [hlength] at hlt
      exact .inl (.inl (by omega))
    · exact .inr ⟨'u', by decide, ds, rfl⟩
    · exact .inr ⟨'U', by decide, ds, rfl⟩
  | octal hlength hds =>
    have hlt := hds.lt
    rw [hlength] at hlt
    exact .inl (.inl (by omega))

/-- Nothing is read after a backslash exactly if no escape stands there. -/
private theorem escape?_eq_none_iff {rest : List Char} : escape? rest = none ↔ IsNoEscape rest := by
  constructor
  · intro h
    by_cases hescape : ∃ text n, text <+: rest ∧ IsEscape text n
    · obtain ⟨text, n, ⟨tail, rfl⟩, htext⟩ := hescape
      have hinvalid : ¬ n.isValidChar := by
        rwa [escape?_append htext, Option.map_eq_none_iff, charOf?_eq_none_iff] at h
      obtain ⟨l, hl, ds, rfl⟩ := htext.isValidChar_or.resolve_left hinvalid
      exact .inr ⟨l, hl, ds, n, List.prefix_append _ _, htext, hinvalid⟩
    · exact .inl fun text n hprefix htext => hescape ⟨text, n, hprefix, htext⟩
  · rintro (hnone | ⟨l, -, ds, n, ⟨tail, rfl⟩, htext, hinvalid⟩)
    · rw [Option.eq_none_iff_forall_ne_some]
      rintro ⟨a, tail⟩ h
      obtain ⟨text, rfl, htext⟩ := escape?_eq_some_iff.mp h
      exact hnone text _ (List.prefix_append _ _) htext
    · rw [escape?_append htext, charOf?_eq_none_iff.mpr hinvalid]
      rfl

/-- Every other character stands for itself. -/
private theorem interpreted?_verbatim {c : Char} (h : c ≠ '\\') (cs : List Char) :
    interpreted? (c :: cs) = (interpreted? cs).map (c :: ·) := by
  rw [interpreted?, if_neg h]

/-- An escape is read as one character. -/
private theorem interpreted?_escape {cs rest : List Char} {a : Char}
    (h : escape? cs = some (a, rest)) :
    interpreted? ('\\' :: cs) = (interpreted? rest).map (a :: ·) := by
  rw [interpreted?, if_pos rfl]
  split
  · next hnone =>
    rw [h] at hnone
    cases hnone
  · next hsome =>
    rw [h] at hsome
    cases hsome
    rfl

private theorem interpreted?_of_isNoEscape {rest : List Char} (h : IsNoEscape rest) :
    interpreted? ('\\' :: rest) = none := by
  rw [interpreted?, if_pos rfl]
  split
  · rfl
  · next hsome =>
    rw [escape?_eq_none_iff.mpr h] at hsome
    cases hsome

/-- What is read first stands first in the value. -/
theorem Reads.interpreted?_append {cs s : List Char} (h : Reads cs s) (rest : List Char) :
    interpreted? (cs ++ rest) = (interpreted? rest).map (s ++ ·) := by
  induction h with
  | nil => exact Option.map_id'.symm
  | @verbatim c cs s hc _ ih =>
    rw [List.cons_append, interpreted?_verbatim hc, ih, Option.map_map]
    rfl
  | @escape text cs s a htext _ ih =>
    have hescape : escape? (text ++ (cs ++ rest)) = some (a, cs ++ rest) :=
      escape?_eq_some_iff.mpr ⟨text, rfl, htext⟩
    rw [List.cons_append, List.append_assoc, interpreted?_escape hescape, ih, Option.map_map]
    rfl

/-- What is written is read. -/
theorem Reads.interpreted?_eq {cs s : List Char} (h : Reads cs s) : interpreted? cs = some s := by
  have happend := h.interpreted?_append []
  rwa [List.append_nil, Literal.interpreted?, Option.map_some, List.append_nil] at happend

/-- What breaks is not read. -/
theorem Breaks.interpreted?_eq {cs : List Char} (h : Breaks cs) : interpreted? cs = none := by
  obtain ⟨front, s, rest, rfl, hfront, hrest⟩ := h
  rw [hfront.interpreted?_append, interpreted?_of_isNoEscape hrest]
  rfl

/-- **Every text can be read, or it breaks.** -/
theorem reads_or_breaks (cs : List Char) : (∃ s, Reads cs s) ∨ Breaks cs := by
  -- an escape takes several characters at once, so the induction is on the length
  induction hlength : cs.length using Nat.strong_induction_on generalizing cs with
  | _ n ih =>
    cases cs with
    | nil => exact .inl ⟨[], .nil⟩
    | cons c cs =>
      subst hlength
      by_cases hc : c = '\\'
      · subst hc
        cases hescape : escape? cs with
        | none => exact .inr ⟨[], [], cs, rfl, .nil, escape?_eq_none_iff.mp hescape⟩
        | some found =>
          obtain ⟨a, rest⟩ := found
          obtain ⟨text, rfl, htext⟩ := escape?_eq_some_iff.mp hescape
          have hshorter : rest.length < ('\\' :: (text ++ rest)).length :=
            (length_lt_of_escape? hescape).trans (Nat.lt_succ_self _)
          rcases ih _ hshorter rest rfl with ⟨s, hs⟩ | ⟨front, s, tail, rfl, hfront, htail⟩
          · exact .inl ⟨a :: s, .escape htext hs⟩
          · refine .inr ⟨'\\' :: (text ++ front), a :: s, tail, ?_, .escape htext hfront, htail⟩
            rw [List.cons_append, List.append_assoc]
      · rcases ih _ (Nat.lt_succ_self _) cs rfl with ⟨s, hs⟩ | ⟨front, s, tail, rfl, hfront, htail⟩
        · exact .inl ⟨c :: s, .verbatim hc hs⟩
        · exact .inr ⟨c :: front, c :: s, tail, rfl, .verbatim hc hfront, htail⟩

/-- Reading finds the text that is written, and no other. -/
private theorem interpreted?_eq_some_iff {cs s : List Char} :
    interpreted? cs = some s ↔ Reads cs s := by
  refine ⟨fun h => ?_, Reads.interpreted?_eq⟩
  rcases reads_or_breaks cs with ⟨t, ht⟩ | hbreaks
  · rw [ht.interpreted?_eq] at h
    exact Option.some.inj h ▸ ht
  · rw [hbreaks.interpreted?_eq] at h
    cases h

private theorem interpreted?_eq_none_iff {cs : List Char} : interpreted? cs = none ↔ Breaks cs := by
  refine ⟨fun h => ?_, Breaks.interpreted?_eq⟩
  rcases reads_or_breaks cs with ⟨t, ht⟩ | hbreaks
  · rw [ht.interpreted?_eq] at h
    cases h
  · exact hbreaks

/-! ### Literals -/

private theorem between?_surrounded (mark : Char) (cs : List Char) :
    between? mark (mark :: (cs ++ [mark])) = some cs := by
  rw [between?, Text.strip?, if_pos rfl]
  exact Text.stripEnd?_eq_some_iff.mpr rfl

/-- Between double quotes stands a text with escapes. -/
theorem value?_quoted (cs : List Char) : value? ('"' :: (cs ++ ['"'])) = interpreted? cs := by
  have hback : between? '\x60' ('"' :: (cs ++ ['"'])) = none := rfl
  rw [value?, hback, between?_surrounded]
  rfl

/-- Between back quotes stands a text without escapes. -/
theorem value?_backQuoted (cs : List Char) :
    value? ('\x60' :: (cs ++ ['\x60'])) = some (cs.filter (· != '\r')) := by
  rw [value?, between?_surrounded]

end Literal

/-- **The values of string literals.** Between double quotes, a text denotes the characters that it
is a spelling of, and nothing else; it denotes nothing exactly if reading it from the left comes to
a backslash that starts no escape, or one of no character. Between back quotes, a text denotes
itself without its carriage returns. -/
theorem unquote_iff (text : String) :
    (∀ s, unquote ("\"" ++ text ++ "\"") = some s ↔ Literal.Reads text.toList s.toList) ∧
    (unquote ("\"" ++ text ++ "\"") = none ↔ Literal.Breaks text.toList) ∧
    unquote ("`" ++ text ++ "`") = some (String.ofList (text.toList.filter (· != '\r'))) := by
  have hquoted : unquote ("\"" ++ text ++ "\"") =
      (Literal.interpreted? text.toList).map String.ofList := by
    rw [unquote, ← Literal.value?_quoted]
    simp
  refine ⟨fun s => ?_, ?_, ?_⟩
  · rw [hquoted, ← Literal.interpreted?_eq_some_iff, Option.map_eq_some_iff]
    constructor
    · rintro ⟨cs, hcs, rfl⟩
      rw [hcs, String.toList_ofList]
    · exact fun h => ⟨s.toList, h, String.ofList_toList⟩
  · rw [hquoted, Option.map_eq_none_iff, Literal.interpreted?_eq_none_iff]
  · rw [unquote, ← Option.map_some, ← Literal.value?_backQuoted]
    simp

/-- Spellings of one letter, and of a letter that is written as it is. -/
example : unquote "\"\\x41\\101\\u0041\\U00000041é\"" = some "AAAAé" := by decide +kernel

/-- A surrogate is no character. -/
example : unquote "\"\\ud800\"" = none := by decide +kernel

end GoPages
