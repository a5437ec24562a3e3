import GoPages.Token.Lexer
import Mathlib.Data.List.TakeWhile

/-!
# The shapes of lexemes

What the text of a lexeme looks like follows from its class (`Lexeme.HasShape`): white space is one
character, a line comment stays on its line, a block comment ends with its closing mark, and a token
other than a literal has only characters above the space. `Lexeme.hasShape_of_scan` is what the
facts about whole texts rest on.
-/

namespace GoPages

/-! ### Characters -/

namespace Text

/-- The code points of a table are not below its first range. -/
theorem le_of_inRanges {lo hi n : Nat} {rest : Ranges} (h : inRanges ((lo, hi) :: rest) n) :
    lo ≤ n := by
  rw [inRanges] at h
  split at h
  · cases h
  · omega

/-- Letters begin with the capital A. -/
theorem le_toNat_of_isAlphabetic {c : Char} (h : isAlphabetic c) : 0x41 ≤ c.toNat := by
  unfold isAlphabetic alphabeticRanges at h
  exact le_of_inRanges h

private theorem le_toNat_of_isNumeric {c : Char} (h : isNumeric c) : 0x30 ≤ c.toNat := by
  unfold isNumeric numericRanges at h
  exact le_of_inRanges h

end Text

namespace Lexeme

/-- Does the character stand after the space, so that it is neither white space nor a control
character of ASCII? -/
def isAboveSpace (c : Char) : Bool := 0x20 < c.toNat

private theorem isAboveSpace_of_startsIdent {c : Char} (h : startsIdent c) : isAboveSpace c := by
  rw [startsIdent, Bool.or_eq_true, beq_iff_eq] at h
  rw [isAboveSpace, decide_eq_true_iff]
  rcases h with rfl | h
  · decide
  · have := Text.le_toNat_of_isAlphabetic h
    omega

private theorem isAboveSpace_of_continuesIdent {c : Char} (h : continuesIdent c) :
    isAboveSpace c := by
  rw [continuesIdent, Bool.or_eq_true] at h
  rcases h with h | h
  · exact isAboveSpace_of_startsIdent h
  · have := Text.le_toNat_of_isNumeric h
    rw [isAboveSpace, decide_eq_true_iff]
    omega

private theorem isAboveSpace_of_isAlphanum {c : Char} (h : c.isAlphanum) : isAboveSpace c := by
  have htoNat : c.toNat = c.val.toNat := rfl
  have hupper : 'A'.val.toNat = 65 := rfl
  have hlower : 'a'.val.toNat = 97 := rfl
  have hdigit : '0'.val.toNat = 48 := rfl
  unfold Char.isAlphanum Char.isAlpha Char.isUpper Char.isLower Char.isDigit at h
  simp only [Bool.or_eq_true, Bool.and_eq_true, decide_eq_true_eq, UInt32.le_iff_toNat_le,
    ge_iff_le] at h
  rw [isAboveSpace, decide_eq_true_iff]
  omega

private theorem isAboveSpace_of_mem_numberSpan {cs : List Char} {c : Char}
    (h : c ∈ (numberSpan cs).1) : isAboveSpace c := by
  have hone {d : Char} (hd : d.isAlphanum || d == '_' || d == '.') : isAboveSpace d := by
    simp only [Bool.or_eq_true, beq_iff_eq] at hd
    rcases hd with (hd | rfl) | rfl
    · exact isAboveSpace_of_isAlphanum hd
    · decide
    · decide
  fun_induction numberSpan cs with
  | case1 => cases h
  | case2 d hd =>
    obtain rfl := List.mem_singleton.mp h
    exact hone hd
  | case3 => cases h
  | case4 d sign rest hsign body _ hspan ih =>
    simp only [Bool.and_eq_true, isExponentLetter, Bool.or_eq_true, beq_iff_eq] at hsign
    rw [hspan] at ih
    rcases List.mem_cons.mp h with rfl | h
    · rcases hsign.1 with ((rfl | rfl) | rfl) | rfl <;> decide
    rcases List.mem_cons.mp h with rfl | h
    · rcases hsign.2 with rfl | rfl <;> decide
    · exact ih h
  | case5 d e rest _ hd body _ hspan ih =>
    rw [hspan] at ih
    rcases List.mem_cons.mp h with rfl | h
    · exact hone hd
    · exact ih h
  | case6 => cases h

private theorem isAboveSpace_of_mem_operators {op : String} (h : op ∈ operators) :
    ∀ c ∈ op.toList, isAboveSpace c := by
  have hall : (operators.all fun op => op.toList.all isAboveSpace) = true := by decide
  exact List.all_eq_true.mp (List.all_eq_true.mp hall op h)

/-! ### Classes -/

/-- What the text of a lexeme looks like, by its class. -/
def HasShape (x : Lexeme) : Prop :=
  match x.cls with
  | .blank => x.text ∈ [[' '], ['\t'], ['\r']]
  | .newline => x.text = ['\n']
  | .lineComment => '\n' ∉ x.text
  | .blockComment => x.text.getLast? = some '/'
  | .token .char => True
  | .token .string => True
  | .token .semicolon => x.text = [';']
  | .token .eof => False
  | .token _ => ∀ c ∈ x.text, isAboveSpace c

private theorem getLast?_of_blockRest? {cs body rest : List Char}
    (h : blockRest? cs = some (body, rest)) : body.getLast? = some '/' := by
  fun_induction blockRest? cs generalizing body rest with
  | case1 => cases h
  | case2 =>
    cases h
    rfl
  | case3 c cs _ ih =>
    obtain ⟨⟨b, r⟩, hb, heq⟩ := Option.map_eq_some_iff.1 h
    cases heq
    rw [List.getLast?_cons, ih hb, Option.getD_some]

/-- A word has the shape of its kind of token. -/
private theorem hasShape_word {word : List Char} (h : ∀ c ∈ word, isAboveSpace c) :
    HasShape ⟨.token (wordKind word), word⟩ := by
  rw [wordKind]
  split
  · exact h
  · exact h

/-- An operator, or the semicolon, has the shape of its kind of token. -/
private theorem hasShape_operator {op : String} (h : op ∈ operators) :
    HasShape ⟨.token (if op = ";" then .semicolon else .op), op.toList⟩ := by
  by_cases hsemicolon : op = ";"
  · subst hsemicolon
    rfl
  · rw [if_neg hsemicolon]
    exact isAboveSpace_of_mem_operators h

/-- What can stand in a text as a token has the shape of one. -/
private theorem Reads.hasShape {c : Char} {cs text rest : List Char} {kind : TokenKind}
    (h : Reads c cs kind text rest) : HasShape ⟨.token kind, text⟩ := by
  cases h with
  | string | raw | rune => trivial
  | number hc =>
    refine List.forall_mem_cons.mpr ⟨?_, fun d hd => isAboveSpace_of_mem_numberSpan hd⟩
    simp only [startsNumber, Bool.or_eq_true, Bool.and_eq_true, beq_iff_eq] at hc
    rcases hc with hc | ⟨rfl, -⟩
    · exact isAboveSpace_of_isAlphanum (by simp [Char.isAlphanum, hc])
    · decide
  | word hc =>
    refine hasShape_word (List.forall_mem_cons.mpr ⟨isAboveSpace_of_startsIdent hc, fun d hd => ?_⟩)
    exact isAboveSpace_of_continuesIdent (List.mem_takeWhile_imp hd)
  | operator hop => exact hasShape_operator (operator?_append hop).1

/-- The scanner gives lexemes of their class's shape. -/
theorem hasShape_of_scan {c : Char} {cs rest : List Char} {x : Lexeme}
    (h : scan c cs = .ok (x, rest)) : x.HasShape := by
  cases scans_of_scan h with
  | newline => rfl
  | blank hc => rcases hc with rfl | rfl | rfl <;> simp [HasShape]
  | @lineComment cs =>
    have hline : '\n' ∉ cs.takeWhile (· != '\n') := fun hmem => by
      simpa using List.mem_takeWhile_imp hmem
    simp [HasShape, hline]
  | blockComment hcut =>
    have hlast := getLast?_of_blockRest? hcut
    simp [HasShape, List.getLast?_cons, hlast]
  | token h => exact h.hasShape

end Lexeme

/-- The lexemes of a text have the shapes of their classes, and none is empty. -/
theorem hasShape_of_mem_lexemes {l finish : Location} {cs : List Char} {placed : List Placed}
    (h : lexemes l cs = .ok (placed, finish)) :
    ∀ p ∈ placed, p.lexeme.HasShape ∧ p.lexeme.text ≠ [] := by
  intro p hp
  obtain ⟨c, ds, rest, hscan⟩ := exists_scan_of_mem_lexemes h p hp
  exact ⟨Lexeme.hasShape_of_scan hscan, (Lexeme.scan_append hscan).2⟩

end GoPages
