import Mathlib.Order.Basic
import GoPages.Proofs.Text.Bytes
import GoPages.StructTag

/-!
# Tags are searched byte by byte

The value under a key can be searched in the bytes of a tag. Each round of the search takes the
first pair off what is left of the tag (`StructTag.cutPair`): the key, the text after it, the text
after the colon, the literal and the rest are slices of the text at hand, and the round fails if one
of them is not proper.

The closing quote of a literal is looked for byte by byte (`StructTag.closingQuote`), where a
backslash takes the byte after it along. That byte may be the first of several that encode a
character, or there may be none, so the search may go on inside a character or step over the end of
the text. It still finds the quote where the characters of the literal end
(`StructTag.findsQuote_closeQuote?`), since the other bytes of a character are neither quotes nor
backslashes.

So no round fails, each gives an answer or leaves less of the tag (`StructTag.nextPair_round`), and
the search ends with what `StructTag.lookup` gives (`StructTag.searches_iff_lookup`).
-/

namespace GoPages.StructTag

open Text (Slice)

/-! ### Searching in bytes -/

/-- The text from its first character on that is no space. -/
def skipSpaces (text : String) : String := String.ofList (text.toList.dropWhile (· == ' '))

/-- The byte offset of the first character that cannot stand in a key, or the size of the text. -/
def keySize (text : String) : Nat := (String.ofList (text.toList.takeWhile isKeyChar)).utf8ByteSize

/-- The index of the first quote from `i` on, where a backslash takes the byte after it along. It is
beyond the bytes if they have no such quote. -/
def closingQuote (bytes : ByteArray) (i : Nat) : Nat :=
  if h : i < bytes.size then
    if bytes[i] = '"'.toUInt8 then i
    else closingQuote bytes (if bytes[i] = '\\'.toUInt8 then i + 2 else i + 1)
  else i
termination_by bytes.size - i
decreasing_by split <;> omega

/-- The literal that the text begins with, and what follows it. The text begins with a quote. -/
def cutLiteral (text : String) : Except Slice (Option (String × String)) :=
  let quote := closingQuote text.toUTF8 1
  if text.utf8ByteSize ≤ quote then return none
  else do
    let literal ← Slice.cut ⟨text, 0, quote + 1⟩
    let rest ← Slice.cut ⟨text, quote + 1, text.utf8ByteSize⟩
    return some (literal, rest)

/-- The key and the literal of the pair that the tag begins with, and what follows the pair, given
the size of the key. -/
def cutPairOf (tag : String) (size : Nat) : Except Slice (Option (String × String × String)) := do
  let afterKey ← Slice.cut ⟨tag, size, tag.utf8ByteSize⟩
  if afterKey.startsWith ":\"" then
    let key ← Slice.cut ⟨tag, 0, size⟩
    let text ← Slice.cut ⟨tag, size + 1, tag.utf8ByteSize⟩
    return (← cutLiteral text).map fun (literal, rest) => (key, literal, rest)
  else return none

/-- The key and the literal of the first pair of a tag, and what follows the pair. -/
def cutPair (tag : String) : Except Slice (Option (String × String × String)) :=
  let tag := skipSpaces tag
  let size := keySize tag
  if tag.isEmpty ∨ size = 0 then return none else cutPairOf tag size

/-- A round of the search for a key: what is left of the tag to go on with, or an answer. -/
def nextPair (key tag : String) : Except Slice (String ⊕ Option String) := do
  match ← cutPair tag with
  | none => return .inr none
  | some (name, literal, rest) => return if name = key then .inr (unquote literal) else .inl rest

/-- The search for a key in a tag ends, with an answer or with a slice that is not proper. -/
inductive Searches (key : String) : String → Except Slice (Option String) → Prop
  | fault {tag : String} {s : Slice} (h : nextPair key tag = .error s) : Searches key tag (.error s)
  | answer {tag : String} {a : Option String} (h : nextPair key tag = .ok (.inr a)) :
    Searches key tag (.ok a)
  | again {tag rest : String} {r : Except Slice (Option String)}
    (h : nextPair key tag = .ok (.inl rest)) (h' : Searches key rest r) : Searches key tag r

/-! ### The closing quote -/

/-- The byte is neither a quote nor a backslash. -/
def IsPlainByte (b : UInt8) : Prop := b ≠ '"'.toUInt8 ∧ b ≠ '\\'.toUInt8

/-- A byte of several is no quote and no backslash. -/
private theorem isPlainByte_of_le {b : UInt8} (h : 128 ≤ b.toNat) : IsPlainByte b := by
  constructor
  · rintro rfl
    exact absurd h (by decide)
  · rintro rfl
    exact absurd h (by decide)

/-- Nor is a byte of any other character. -/
private theorem isPlainByte_of_mem {c : Char} {b : UInt8} (hquote : c ≠ '"') (hback : c ≠ '\\')
    (h : b ∈ String.utf8EncodeChar c) : IsPlainByte b := by
  constructor
  · rintro rfl
    exact hquote ((Text.mem_utf8EncodeChar_iff (by decide)).mp h)
  · rintro rfl
    exact hback ((Text.mem_utf8EncodeChar_iff (by decide)).mp h)

/-- The quote that the search finds from `i` on is the last character of the body, if there is one;
otherwise the search ends beyond the bytes. -/
def FindsQuote (bytes : ByteArray) (i : Nat) : Option (List Char × List Char) → Prop
  | none => bytes.size ≤ closingQuote bytes i
  | some (body, _) => closingQuote bytes i + 1 = i + (String.ofList body).utf8ByteSize

section

variable {bytes : ByteArray} {i : Nat}

/-- At the end of the text the search stops. -/
private theorem closingQuote_of_size_le (h : bytes.size ≤ i) : closingQuote bytes i = i := by
  rw [closingQuote, dif_neg (Nat.not_lt.mpr h)]

private theorem size_le_of_drop_eq_nil (h : bytes.toList.drop i = []) : bytes.size ≤ i := by
  rw [Text.toList_byteArray] at h
  simpa using List.drop_eq_nil_iff.mp h

/-- What follows a part of the text starts where the part ends. -/
private theorem drop_add_of_drop (start : List UInt8) {more : List UInt8}
    (h : bytes.toList.drop i = start ++ more) : bytes.toList.drop (i + start.length) = more := by
  rw [← List.drop_drop, h, List.drop_left]

/-- The search looks at the first of the bytes that are left. -/
theorem closingQuote_of_drop {b : UInt8} {more : List UInt8}
    (h : bytes.toList.drop i = b :: more) :
    closingQuote bytes i = if b = '"'.toUInt8 then i
      else closingQuote bytes (if b = '\\'.toUInt8 then i + 2 else i + 1) := by
  rw [Text.toList_byteArray] at h
  have hlength : i < bytes.data.toList.length := by
    refine Nat.lt_of_not_le fun hle => ?_
    rw [List.drop_eq_nil_of_le hle] at h
    cases h
  have hsize : i < bytes.size := by simpa using hlength
  have hget : bytes[i] = b := by
    rw [List.drop_eq_getElem_cons hlength] at h
    exact (List.cons.inj h).1
  rw [closingQuote, dif_pos hsize, hget]

/-- Plain bytes are passed over one by one. -/
theorem closingQuote_of_plain {start more : List UInt8}
    (h : bytes.toList.drop i = start ++ more) (hstart : ∀ b ∈ start, IsPlainByte b) :
    closingQuote bytes i = closingQuote bytes (i + start.length) := by
  induction start generalizing i with
  | nil => rfl
  | cons b start ih =>
    obtain ⟨⟨hquote, hback⟩, hstart⟩ := List.forall_mem_cons.mp hstart
    have hnext : bytes.toList.drop (i + 1) = start ++ more := drop_add_of_drop [b] h
    rw [closingQuote_of_drop h, if_neg hquote, if_neg hback, ih hnext hstart, List.length_cons,
      Nat.add_assoc, Nat.add_comm 1]

/-- A backslash and the character after it are passed over. The search steps into the character,
and on to its end. -/
theorem closingQuote_of_escape {c : Char} {more : List UInt8}
    (h : bytes.toList.drop i = ['\\', c].flatMap String.utf8EncodeChar ++ more) :
    closingQuote bytes i =
      closingQuote bytes (i + (['\\', c].flatMap String.utf8EncodeChar).length) := by
  -- the backslash takes the first byte of the character along
  obtain ⟨b, tail, hc⟩ := List.exists_cons_of_ne_nil (String.utf8EncodeChar_ne_nil (c := c))
  have htail : ∀ d ∈ tail, IsPlainByte d := fun d hd =>
    isPlainByte_of_le (Text.le_of_mem_tail_utf8EncodeChar (c := c) (by rwa [hc]))
  have hstart : ['\\', c].flatMap String.utf8EncodeChar = '\\'.toUInt8 :: b :: tail := by
    rw [List.flatMap_cons, List.flatMap_singleton, hc]
    rfl
  rw [hstart] at h ⊢
  have hinside : bytes.toList.drop (i + 2) = tail ++ more := drop_add_of_drop ['\\'.toUInt8, b] h
  rw [closingQuote_of_drop h, if_neg (by decide), if_pos rfl, closingQuote_of_plain hinside htail,
    List.length_cons, List.length_cons, Nat.add_assoc, Nat.add_comm 2]

/-- What holds behind a text that is passed over holds before it. -/
theorem FindsQuote.map {start : List Char} {found : Option (List Char × List Char)}
    (h : FindsQuote bytes (i + (start.flatMap String.utf8EncodeChar).length) found)
    (hskip : closingQuote bytes i =
      closingQuote bytes (i + (start.flatMap String.utf8EncodeChar).length)) :
    FindsQuote bytes i (found.map fun (body, rest) => (start ++ body, rest)) := by
  rcases found with _ | ⟨body, rest⟩
  · exact h.trans_eq hskip.symm
  · have hquote : closingQuote bytes i + 1 = i + (start.flatMap String.utf8EncodeChar).length +
        (String.ofList body).utf8ByteSize := hskip ▸ h
    rw [Option.map_some, FindsQuote, hquote, String.ofList_append, String.utf8ByteSize_append,
      Text.utf8ByteSize_ofList start, Nat.add_assoc]

/-- **The closing quote** is found byte by byte where the characters of the literal end. -/
theorem findsQuote_closeQuote? {cs : List Char}
    (h : bytes.toList.drop i = cs.flatMap String.utf8EncodeChar) :
    FindsQuote bytes i (closeQuote? cs) := by
  fun_induction closeQuote? cs generalizing i with
  | case1 =>
    have hsize := size_le_of_drop_eq_nil h
    exact hsize.trans_eq (closingQuote_of_size_le hsize).symm
  | case2 rest =>
    rw [FindsQuote, closingQuote_of_drop h]
    rfl
  | case3 =>
    -- the backslash is the last byte, and the search steps over the end
    have hsize : bytes.size ≤ i + 1 := size_le_of_drop_eq_nil (drop_add_of_drop ['\\'.toUInt8] h)
    rw [FindsQuote, closingQuote_of_drop h, if_neg (by decide), if_pos (by decide),
      closingQuote_of_size_le (by omega)]
    omega
  | case4 c rest ih =>
    have hleft : bytes.toList.drop i =
        ['\\', c].flatMap String.utf8EncodeChar ++ rest.flatMap String.utf8EncodeChar := by
      rw [h, ← List.flatMap_append]
      rfl
    exact (ih (drop_add_of_drop _ hleft)).map (closingQuote_of_escape hleft)
  | case5 c rest hquote hlast hnext ih =>
    have hback : c ≠ '\\' := by
      -- the cases before have taken what starts with a backslash
      rintro rfl
      rcases rest with _ | ⟨d, rest⟩
      · exact hlast rfl rfl
      · exact hnext d rest rfl rfl
    have hleft : bytes.toList.drop i =
        [c].flatMap String.utf8EncodeChar ++ rest.flatMap String.utf8EncodeChar := by
      rw [h, ← List.flatMap_append]
      rfl
    refine (ih (drop_add_of_drop _ hleft)).map (closingQuote_of_plain hleft fun b hb => ?_)
    rw [List.flatMap_singleton] at hb
    exact isPlainByte_of_mem hquote hback hb

end

/-- The byte after the backslash is the first of two, and the search goes on at the second. -/
example : closingQuote "\"\\é\"".toUTF8 1 = 4 := by decide +kernel

/-- There is no byte after the backslash. -/
example : closingQuote "\"\\".toUTF8 1 = 3 := by decide +kernel

/-! ### Rounds -/

/-- The literal and what follows it are proper slices. -/
theorem cutLiteral_ofList (cs : List Char) :
    cutLiteral (String.ofList ('"' :: cs)) = .ok ((closeQuote? cs).map fun (body, rest) =>
      (String.ofList ('"' :: body), String.ofList rest)) := by
  have hbytes : (String.ofList ('"' :: cs)).toUTF8.toList.drop 1 =
      cs.flatMap String.utf8EncodeChar := by
    rw [Text.toList_toUTF8, String.toList_ofList]
    rfl
  have hfinds := findsQuote_closeQuote? hbytes
  have hsize : (String.ofList ('"' :: cs)).toUTF8.size =
      (String.ofList ('"' :: cs)).utf8ByteSize := String.size_toByteArray
  rw [cutLiteral]
  rcases hclose : closeQuote? cs with _ | ⟨body, rest⟩
  · rw [hclose, FindsQuote, hsize] at hfinds
    exact if_pos hfinds
  · have hquote : closingQuote (String.ofList ('"' :: cs)).toUTF8 1 + 1 =
        (String.ofList ('"' :: body)).utf8ByteSize := by
      -- the search starts behind the first quote, a single byte
      have hfound : closingQuote (String.ofList ('"' :: cs)).toUTF8 1 + 1 =
          1 + (String.ofList body).utf8ByteSize := by
        rw [hclose] at hfinds
        exact hfinds
      rw [hfound, ← List.singleton_append, String.ofList_append, String.utf8ByteSize_append]
      rfl
    have htext : String.ofList ('"' :: cs) = String.ofList ('"' :: body) ++ String.ofList rest := by
      rw [closeQuote?_append hclose, ← String.ofList_append]
      rfl
    have hlt : closingQuote (String.ofList ('"' :: cs)).toUTF8 1 <
        (String.ofList ('"' :: cs)).utf8ByteSize := by
      rw [htext, String.utf8ByteSize_append, ← htext]
      omega
    dsimp only
    rw [if_neg (Nat.not_le.mpr hlt), hquote, htext, Slice.cut_start, Slice.cut_end]
    rfl

/-- The key, the text after it and the text after the colon are proper slices. -/
theorem cutPairOf_ofList (key afterKey : List Char) :
    cutPairOf (String.ofList (key ++ afterKey)) (String.ofList key).utf8ByteSize =
      .ok ((pairOf? key afterKey).map fun (p, rest) =>
        (String.ofList p.key, String.ofList p.literal, String.ofList rest)) := by
  rw [cutPairOf, String.ofList_append, Slice.cut_end, Slice.cut_start]
  have hstarts : (String.ofList afterKey).startsWith ":\"" ↔ [':', '"'] <+: afterKey := by
    rw [String.startsWith_string_iff, String.toList_ofList, String.toList_ofList]
  simp only [bind, Except.bind]
  rcases hstrip : Text.strip? [':', '"'] afterKey with _ | cs
  · have hno : ¬ [':', '"'] <+: afterKey := by
      rintro ⟨cs, rfl⟩
      cases hstrip.symm.trans (Text.strip?_eq_some_iff.mpr rfl)
    rw [if_neg (mt hstarts.mp hno), pairOf?, hstrip]
    rfl
  · have hafter : afterKey = [':', '"'] ++ cs := Text.strip?_eq_some_iff.mp hstrip
    -- the colon is a single byte
    have htext : String.ofList key ++ String.ofList afterKey =
        String.ofList (key ++ [':']) ++ String.ofList ('"' :: cs) := by
      rw [← String.ofList_append, ← String.ofList_append, hafter]
      simp
    have hsize : (String.ofList key).utf8ByteSize + 1 =
        (String.ofList (key ++ [':'])).utf8ByteSize := by
      rw [String.ofList_append, String.utf8ByteSize_append]
      rfl
    rw [if_pos (hstarts.mpr ⟨cs, hafter.symm⟩), hsize, htext, Slice.cut_end, pairOf?, hstrip]
    simp only [cutLiteral_ofList, Option.bind_eq_bind, Option.bind_some]
    cases closeQuote? cs <;> rfl

/-- The slices of a round are proper. -/
theorem cutPair_eq (tag : String) :
    cutPair tag = .ok ((pair? tag.toList).map fun (p, rest) =>
      (String.ofList p.key, String.ofList p.literal, String.ofList rest)) := by
  rw [cutPair, pair?, skipSpaces, keySize, String.toList_ofList]
  generalize tag.toList.dropWhile (· == ' ') = cs
  have hsize : (String.ofList (cs.takeWhile isKeyChar)).utf8ByteSize = 0 ↔
      cs.takeWhile isKeyChar = [] := by
    rw [String.utf8ByteSize_eq_zero_iff, String.ofList_eq_empty_iff]
  by_cases hkey : cs.takeWhile isKeyChar = []
  · rw [if_pos (.inr (hsize.mpr hkey)), if_pos (List.isEmpty_iff.mpr hkey)]
    rfl
  · have hcs : ¬ (String.ofList cs).isEmpty := by
      rw [String.isEmpty_iff, String.ofList_eq_empty_iff]
      rintro rfl
      exact hkey rfl
    rw [if_neg (not_or.mpr ⟨hcs, mt hsize.mp hkey⟩), if_neg (mt List.isEmpty_iff.mp hkey),
      ← cutPairOf_ofList, List.takeWhile_append_dropWhile]

/-- A round takes the first pair off the tag, or ends the search. -/
private theorem nextPair_eq (key tag : String) :
    nextPair key tag = .ok (match pair? tag.toList with
      | none => .inr none
      | some (p, rest) =>
        if p.key = key.toList then .inr ((Literal.value? p.literal).map String.ofList)
        else .inl (String.ofList rest)) := by
  rw [nextPair, cutPair_eq]
  rcases pair? tag.toList with _ | ⟨p, rest⟩
  · rfl
  · have hkey : String.ofList p.key = key ↔ p.key = key.toList := by
      rw [← String.toList_inj, String.toList_ofList]
    have hvalue : unquote (String.ofList p.literal) =
        (Literal.value? p.literal).map String.ofList := by
      rw [unquote, String.toList_ofList]
    simp only [bind, Except.bind, Option.map_some, hkey, hvalue]
    rfl

/-- A lookup looks at the first pair, and then behind it. -/
private theorem lookup_eq (tag key : String) :
    lookup tag key = match pair? tag.toList with
      | none => none
      | some (p, rest) =>
        if p.key = key.toList then (Literal.value? p.literal).map String.ofList
        else lookup (String.ofList rest) key := by
  rw [lookup, value?]
  split
  · next h => rw [h]; rfl
  · next p rest h =>
    simp only [h, apply_ite (Option.map String.ofList), lookup, String.toList_ofList]

/-- What follows a pair is shorter in bytes, too. -/
private theorem utf8ByteSize_lt_of_pair? {tag : String} {p : Pair} {rest : List Char}
    (h : pair? tag.toList = some (p, rest)) :
    (String.ofList rest).utf8ByteSize < tag.utf8ByteSize := by
  obtain ⟨blanks, htag⟩ := pair?_append h
  have hcolon := (':').utf8Size_pos
  rw [← String.ofList_toList (s := tag), htag, Text.utf8ByteSize_ofList, Text.utf8ByteSize_ofList]
  simp only [List.flatMap_append, List.flatMap_cons, List.length_append,
    String.length_utf8EncodeChar]
  omega

/-- **A round** does not fail. It gives the value under the key, or it leaves less of the tag, with
the same value under the key. -/
theorem nextPair_round (key tag : String) :
    nextPair key tag = .ok (.inr (lookup tag key)) ∨
      ∃ rest, nextPair key tag = .ok (.inl rest) ∧ rest.utf8ByteSize < tag.utf8ByteSize ∧
        lookup rest key = lookup tag key := by
  rw [nextPair_eq, lookup_eq tag]
  rcases hpair : pair? tag.toList with _ | ⟨p, rest⟩
  · exact .inl rfl
  · by_cases hkey : p.key = key.toList
    · left
      simp only [if_pos hkey]
    · right
      refine ⟨String.ofList rest, ?_, utf8ByteSize_lt_of_pair? hpair, ?_⟩
      · simp only [if_neg hkey]
      · simp only [if_neg hkey]

/-! ### The search -/

/-- The search ends, since each round leaves less of the tag. -/
theorem searches_lookup (tag key : String) : Searches key tag (.ok (lookup tag key)) := by
  rcases nextPair_round key tag with h | ⟨rest, h, hlt, hlookup⟩
  · exact .answer h
  · rw [← hlookup]
    exact .again h (searches_lookup rest key)
termination_by tag.utf8ByteSize

/-- A search that comes to its end has found what the lookup finds. -/
private theorem Searches.eq_lookup {tag key : String} {r : Except Slice (Option String)}
    (h : Searches key tag r) : r = .ok (lookup tag key) := by
  induction h with
  | @fault tag s h =>
    rcases nextPair_round key tag with h' | ⟨rest, h', -⟩
    · exact nomatch h.symm.trans h'
    · exact nomatch h.symm.trans h'
  | @answer tag a h =>
    rcases nextPair_round key tag with h' | ⟨rest, h', -⟩
    · obtain rfl : a = lookup tag key := Sum.inr.inj (Except.ok.inj (h.symm.trans h'))
      rfl
    · exact nomatch h.symm.trans h'
  | @again tag left r h _ ih =>
    rcases nextPair_round key tag with h' | ⟨rest, h', -, hlookup⟩
    · exact nomatch h.symm.trans h'
    · obtain rfl : left = rest := Sum.inl.inj (Except.ok.inj (h.symm.trans h'))
      rw [ih, hlookup]

/-- **A tag is searched safely.** For every tag and key the search in the bytes of the tag ends, and
with nothing else than the answer of `lookup`: all slices that it cuts out are proper. Each of its
rounds gives an answer or leaves less of the tag. -/
theorem searches_iff_lookup (tag key : String) :
    (∀ r, Searches key tag r ↔ r = .ok (lookup tag key)) ∧
      ∀ left, (∃ answer, nextPair key left = .ok (.inr answer)) ∨
        ∃ rest, nextPair key left = .ok (.inl rest) ∧ rest.utf8ByteSize < left.utf8ByteSize := by
  refine ⟨fun r => ⟨Searches.eq_lookup, ?_⟩, fun left => ?_⟩
  · rintro rfl
    exact searches_lookup tag key
  · rcases nextPair_round key left with h | ⟨rest, h, hlt, -⟩
    · exact .inl ⟨_, h⟩
    · exact .inr ⟨rest, h, hlt⟩

end GoPages.StructTag
