import GoPages.Package

/-!
# The bytes of a text

The bytes of a text determine it (`Text.toList_toUTF8_inj`). A byte below 128 belongs to no
character but its own (`Text.mem_utf8EncodeChar_iff`), and a text whose bytes are all below 128 has
a character for each of them. `Text.chars` reads such a text from its bytes, which is what makes it
possible to evaluate a long one.

A `Text.Slice` is named by two byte offsets into a text. It can be cut out if it is proper: its
offsets are in order and in range, and none of them is inside the encoding of a character. Cutting
out any other slice fails (`Text.Slice.cut_eq_ok_iff`). The parts that a text is put together from
are proper slices of it (`Text.Slice.cut_middle`).
-/

namespace GoPages

namespace Text

private theorem byteArrayToList_loop (b : ByteArray) (i : Nat) (acc : List UInt8) :
    ByteArray.toList.loop b i acc = acc.reverse ++ b.data.toList.drop i := by
  fun_induction ByteArray.toList.loop b i acc with
  | case1 i acc h ih =>
    have hi : i < b.data.toList.length := by simpa using h
    have hget : b.get! i = b.data.toList[i] := by simp [ByteArray.get!, h, getElem!_pos]
    rw [ih, List.reverse_cons, List.append_assoc, List.singleton_append,
      List.drop_eq_getElem_cons hi, hget]
  | case2 i acc h =>
    have hi : b.data.toList.length ≤ i := by simpa using h
    rw [List.drop_eq_nil_of_le hi, List.append_nil]

/-- The bytes of an array are those of its data. -/
theorem toList_byteArray (b : ByteArray) : b.toList = b.data.toList := by
  rw [ByteArray.toList, byteArrayToList_loop, List.reverse_nil, List.nil_append, List.drop_zero]

/-- The bytes of a text are those of its characters. -/
theorem toList_toUTF8 (s : String) : s.toUTF8.toList = s.toList.flatMap String.utf8EncodeChar := by
  have h : s.toUTF8 = (s.toList.flatMap String.utf8EncodeChar).toByteArray := by
    rw [← List.utf8Encode, ← String.toByteArray_ofList, String.ofList_toList,
      String.toUTF8_eq_toByteArray]
  rw [h, toList_byteArray, List.data_toByteArray]

/-- The size of a text is that of its characters, each in UTF-8. -/
theorem utf8ByteSize_ofList (cs : List Char) :
    (String.ofList cs).utf8ByteSize = (cs.flatMap String.utf8EncodeChar).length := by
  rw [← String.size_toByteArray, String.toByteArray_ofList, List.utf8Encode, List.size_toByteArray]

/-- Texts with the same bytes are the same. -/
theorem toList_toUTF8_inj {s t : String} (h : s.toUTF8.toList = t.toUTF8.toList) : s = t := by
  rw [toList_byteArray, toList_byteArray] at h
  exact String.toByteArray_inj.mp (ByteArray.ext (Array.toList_inj.mp h))

/-! ### Texts of single bytes -/

/-- The character with this byte as its only one. -/
def charOfByte (b : UInt8) : Char := Char.ofNat b.toNat

private theorem utf8EncodeChar_charOfByte {b : UInt8} (h : b < 128) :
    String.utf8EncodeChar (charOfByte b) = [b] := by
  have hb : b.toNat < 128 := UInt8.lt_iff_toNat_lt.mp h
  have hvalid : Nat.isValidChar b.toNat := .inl (by omega)
  have hval : (charOfByte b).val.toNat = b.toNat := by
    rw [charOfByte, Char.ofNat, dif_pos hvalid]
    rfl
  rw [String.utf8EncodeChar, if_pos (by omega), hval]
  simp

/-- The bytes of a character from 128 on have their highest bit set. -/
theorem le_of_mem_utf8EncodeChar {c : Char} {b : UInt8} (hc : 128 ≤ c.val.toNat)
    (h : b ∈ String.utf8EncodeChar c) : 128 ≤ b.toNat := by
  have hhigh {n : Nat} (hn : n < 128) (h : b = UInt8.ofNat (n + 128)) : 128 ≤ b.toNat := by
    rw [h, UInt8.toNat_ofNat', Nat.mod_eq_of_lt (by omega)]
    exact Nat.le_add_left 128 n
  rw [String.utf8EncodeChar, if_neg (by omega)] at h
  split at h
  · simp only [List.mem_cons, List.not_mem_nil, or_false] at h
    rcases h with h | h
    · exact hhigh (n := _ + 64) (by omega) h
    · exact hhigh (by omega) h
  split at h
  · simp only [List.mem_cons, List.not_mem_nil, or_false] at h
    rcases h with h | h | h
    · exact hhigh (n := _ + 96) (by omega) h
    · exact hhigh (by omega) h
    · exact hhigh (by omega) h
  · simp only [List.mem_cons, List.not_mem_nil, or_false] at h
    rcases h with h | h | h | h
    · exact hhigh (n := _ + 112) (by omega) h
    · exact hhigh (by omega) h
    · exact hhigh (by omega) h
    · exact hhigh (by omega) h

/-- All bytes of a character but the first have their highest bit set. -/
theorem le_of_mem_tail_utf8EncodeChar {c : Char} {b : UInt8}
    (h : b ∈ (String.utf8EncodeChar c).tail) : 128 ≤ b.toNat := by
  by_cases hc : 128 ≤ c.val.toNat
  · exact le_of_mem_utf8EncodeChar hc (List.mem_of_mem_tail h)
  · rw [String.utf8EncodeChar, if_pos (by omega), List.tail_cons] at h
    exact absurd h List.not_mem_nil

/-- A byte below 128 belongs to no character but its own. -/
theorem mem_utf8EncodeChar_iff {c : Char} {b : UInt8} (hb : b < 128) :
    b ∈ String.utf8EncodeChar c ↔ c = charOfByte b := by
  have hown : b ∈ String.utf8EncodeChar (charOfByte b) := by
    rw [utf8EncodeChar_charOfByte hb]
    exact List.mem_singleton_self b
  refine ⟨fun h => ?_, fun h => h ▸ hown⟩
  have hlow : b.toNat < 128 := UInt8.lt_iff_toNat_lt.mp hb
  have hc : c.val.toNat < 128 := Nat.lt_of_not_le fun hc => by
    have := le_of_mem_utf8EncodeChar hc h
    omega
  rw [String.utf8EncodeChar, if_pos (by omega), List.mem_singleton] at h
  rw [charOfByte, h, UInt8.toNat_ofNat', Nat.mod_eq_of_lt (by omega)]
  exact (Char.ofNat_toNat c).symm

/-- Bytes below 128 are the encoding of their characters. -/
private theorem flatMap_charOfByte {bytes : List UInt8} (h : ∀ b ∈ bytes, b < 128) :
    (bytes.map charOfByte).flatMap String.utf8EncodeChar = bytes := by
  induction bytes with
  | nil => rfl
  | cons b bytes ih =>
    obtain ⟨hb, hbytes⟩ := List.forall_mem_cons.mp h
    rw [List.map_cons, List.flatMap_cons, ih hbytes, utf8EncodeChar_charOfByte hb,
      List.singleton_append]

/-- The characters of a text. They are read from its bytes where each byte is one. -/
def chars (s : String) : List Char :=
  let bytes := s.toUTF8.data.toList
  if bytes.all (· < 128) then bytes.map charOfByte else s.toList

/-- The characters of a text can be read from its bytes. -/
theorem chars_eq_toList (s : String) : chars s = s.toList := by
  rw [chars]
  split
  · next h =>
    have hbytes : ∀ b ∈ s.toUTF8.data.toList, b < 128 := fun b hb =>
      of_decide_eq_true (List.all_eq_true.mp h b hb)
    have hs : String.ofList (s.toUTF8.data.toList.map charOfByte) = s := by
      apply toList_toUTF8_inj
      rw [toList_toUTF8, String.toList_ofList, flatMap_charOfByte hbytes, toList_byteArray]
    rw [← String.toList_ofList (l := s.toUTF8.data.toList.map charOfByte), hs]
  · rfl

/-! ### Slices -/

/-- The part of a text from one byte offset up to another. -/
structure Slice where
  text : String
  start : Nat
  stop : Nat

namespace Slice

/-- The offsets are in order, in range, and on boundaries of characters. -/
structure IsProper (s : Slice) : Prop where
  start_le_stop : s.start ≤ s.stop
  start : (String.Pos.Raw.mk s.start).IsValid s.text
  stop : (String.Pos.Raw.mk s.stop).IsValid s.text

/-- A proper slice starts and stops at positions of the text. -/
private theorem isProper_iff (s : Slice) : s.IsProper ↔ s.start ≤ s.stop ∧
    (String.Pos.Raw.mk s.start).IsValid s.text ∧ (String.Pos.Raw.mk s.stop).IsValid s.text :=
  ⟨fun h => ⟨h.start_le_stop, h.start, h.stop⟩, fun h => ⟨h.1, h.2.1, h.2.2⟩⟩

instance (s : Slice) : Decidable s.IsProper := decidable_of_iff' _ s.isProper_iff

/-- The text of a slice. One that is not proper is refused. -/
def cut (s : Slice) : Except Slice String :=
  if h : s.IsProper then .ok (s.text.extract ⟨⟨s.start⟩, h.start⟩ ⟨⟨s.stop⟩, h.stop⟩) else .error s

/-- Cutting out a slice succeeds if it is proper, and then gives its bytes. -/
theorem cut_eq_ok_iff {s : Slice} {t : String} :
    s.cut = .ok t ↔ s.IsProper ∧ t.toByteArray = s.text.toByteArray.extract s.start s.stop := by
  rw [cut]
  split
  · next h =>
    rw [Except.ok.injEq, ← String.toByteArray_inj, String.toByteArray_extract, eq_comm]
    exact (and_iff_right h).symm
  · next h => exact iff_of_false nofun fun h' => h h'.1

/-- The place where two texts meet is a position of both together. -/
private theorem isValid_utf8ByteSize (a b : String) :
    (String.Pos.Raw.mk a.utf8ByteSize).IsValid (a ++ b) :=
  String.Pos.Raw.isValid_iff_exists_append.mpr ⟨a, b, rfl, rfl⟩

/-- The part in the middle of a text. -/
theorem cut_middle (a b c : String) :
    cut ⟨a ++ b ++ c, a.utf8ByteSize, (a ++ b).utf8ByteSize⟩ = .ok b := by
  refine cut_eq_ok_iff.mpr ⟨⟨?_, ?_, isValid_utf8ByteSize (a ++ b) c⟩, ?_⟩
  · rw [String.utf8ByteSize_append]
    exact Nat.le_add_right _ _
  · rw [String.append_assoc]
    exact isValid_utf8ByteSize a (b ++ c)
  · have hstart : a.utf8ByteSize = a.toByteArray.size + 0 := String.size_toByteArray.symm
    have hstop : (a ++ b).utf8ByteSize = a.toByteArray.size + b.toByteArray.size := by
      rw [String.utf8ByteSize_append, String.size_toByteArray, String.size_toByteArray]
    dsimp only
    rw [String.append_assoc, String.toByteArray_append, hstart, hstop,
      ByteArray.extract_append_size_add, String.toByteArray_append,
      ByteArray.extract_append_eq_left rfl]

/-- The part at the beginning of a text. -/
theorem cut_start (a b : String) : cut ⟨a ++ b, 0, a.utf8ByteSize⟩ = .ok a := by
  simpa using cut_middle "" a b

/-- The part at the end of a text. -/
theorem cut_end (a b : String) :
    cut ⟨a ++ b, a.utf8ByteSize, (a ++ b).utf8ByteSize⟩ = .ok b := by
  simpa using cut_middle a b ""

end Slice

end Text

end GoPages
