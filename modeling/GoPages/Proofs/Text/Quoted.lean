import GoPages.Proofs.Literal.Spelling
import GoPages.Proofs.Token.Rescan

/-!
# Quoted text is read back

`Text.quote` and the string literals of Go share the escapes of a backslash and a letter, but not
the others. A character is shown (`Text.isShown`) if it is written as it is or by a shared escape. A
text of such characters, quoted, is a string literal (`scan_quote`) that denotes the text
(`unquote_quote`).
-/

namespace GoPages

namespace Text

/-- Is the character written as it is, or by an escape that Go has? -/
def isShown (c : Char) : Bool :=
  c != '\x00' && (!isHidden c || ['\t', '\r', '\n'].contains c)

/-- Are all characters of the text shown? -/
def allShown (s : String) : Bool := s.toList.all isShown

/-- How a shown character is written: by a letter, or as it is. -/
theorem escape_of_isShown {c : Char} (h : isShown c = true) :
    (∃ d, escape '"' c = ['\\', d] ∧ Literal.letterEscape? d = some c) ∨
      (escape '"' c = [c] ∧ c ≠ '\\' ∧ c ≠ '\n' ∧ c ≠ '"') := by
  simp only [isShown, Bool.and_eq_true, bne_iff_ne, ne_eq, Bool.or_eq_true, Bool.not_eq_true',
    List.contains_eq_mem, List.mem_cons, List.not_mem_nil, or_false, decide_eq_true_eq] at h
  obtain ⟨hzero, hhidden⟩ := h
  rw [escape, if_neg hzero]
  split
  · next hc => exact .inl ⟨'t', rfl, by rw [hc]; rfl⟩
  split
  · next hc => exact .inl ⟨'r', rfl, by rw [hc]; rfl⟩
  split
  · next hc => exact .inl ⟨'n', rfl, by rw [hc]; rfl⟩
  split
  · next hc =>
    rcases hc with rfl | rfl
    · exact .inl ⟨'\\', rfl, rfl⟩
    · exact .inl ⟨'"', rfl, rfl⟩
  · next htab hreturn hline hself =>
    rw [not_or] at hself
    have hseen : isHidden c = false := by
      rcases hhidden with hseen | hc | hc | hc
      · exact hseen
      · exact absurd hc htab
      · exact absurd hc hreturn
      · exact absurd hc hline
    rw [hseen, if_neg Bool.false_ne_true]
    exact .inr ⟨rfl, hself.1, hline, hself.2⟩

/-- A quoted text is escaped character by character. -/
theorem toList_quote (s : String) :
    (quote s).toList = '"' :: (s.toList.flatMap (escape '"') ++ ['"']) :=
  String.toList_ofList

end Text

namespace Lexeme

/-- A character that is shown does not end the literal. -/
private theorem quotedRest?_escape {c : Char} (h : Text.isShown c = true) (cs : List Char) :
    quotedRest? '"' (Text.escape '"' c ++ cs) =
      (quotedRest? '"' cs).map fun cut => (Text.escape '"' c ++ cut.1, cut.2) := by
  rcases Text.escape_of_isShown h with ⟨d, hescape, -⟩ | ⟨hescape, hback, hline, hmark⟩
  · rw [hescape]
    rfl
  · rw [hescape, List.singleton_append, quotedRest?_cons cs hback, if_neg hline, if_neg hmark]
    rfl

/-- So the literal ends at its closing quote. -/
private theorem quotedRest?_flatMap_escape {s : List Char} (h : ∀ c ∈ s, Text.isShown c = true)
    (tail : List Char) :
    quotedRest? '"' (s.flatMap (Text.escape '"') ++ '"' :: tail) =
      some (s.flatMap (Text.escape '"') ++ ['"'], tail) := by
  induction s with
  | nil => rfl
  | cons c s ih =>
    obtain ⟨hc, hs⟩ := List.forall_mem_cons.mp h
    rw [List.flatMap_cons, List.append_assoc, quotedRest?_escape hc, ih hs, List.append_assoc]
    rfl

/-- A quoted text is read as a string literal. -/
theorem scan_quote {s : String} (h : Text.allShown s = true) (tail : List Char) :
    ∃ cs, (Text.quote s).toList = '"' :: cs ∧ scan '"' (cs ++ tail) =
      .ok (⟨.token .string, (Text.quote s).toList⟩, tail) := by
  refine ⟨_, Text.toList_quote s, ?_⟩
  rw [Text.toList_quote, List.append_assoc]
  exact scan_of_reads (.string (quotedRest?_flatMap_escape (List.all_eq_true.mp h) tail))

end Lexeme

/-- A text of shown characters, as it stands between quotes, denotes the text. -/
theorem Literal.reads_flatMap_escape {s : List Char} (h : ∀ c ∈ s, Text.isShown c = true) :
    Reads (s.flatMap (Text.escape '"')) s := by
  induction s with
  | nil => exact .nil
  | cons c s ih =>
    obtain ⟨hc, hs⟩ := List.forall_mem_cons.mp h
    rw [List.flatMap_cons]
    rcases Text.escape_of_isShown hc with ⟨d, hescape, hletter⟩ | ⟨hescape, hback, -⟩
    · rw [hescape]
      exact .escape (.letter (letterEscape?_eq_some_iff.mp hletter)) (ih hs)
    · rw [hescape]
      exact .verbatim hback (ih hs)

/-- A quoted text denotes the text. -/
theorem unquote_quote {s : String} (h : Text.allShown s = true) :
    unquote (Text.quote s) = some s := by
  have hreads := Literal.reads_flatMap_escape (List.all_eq_true.mp h)
  rw [unquote, Text.toList_quote, Literal.value?_quoted, hreads.interpreted?_eq, Option.map_some,
    String.ofList_toList]

end GoPages
