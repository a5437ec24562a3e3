import GoPages.CommentGroup
import GoPages.Proofs.Text.Pieces
import GoPages.Proofs.Text.Trimmed

/-!
# What lines of comments say

A line of a comment may start with a name, and say after it and the word `is` what is declared for
the name: `CommentGroup.Mentions` and `CommentGroup.Says`. White space around the line, and before
what is declared, does not count.

A comment on one line has the same text with either kind of markers
(`CommentGroup.linesOf_lineComment`, `CommentGroup.linesOf_blockComment`).
-/

namespace GoPages.CommentGroup

/-- The line starts with the name and a space. -/
def Mentions (name line : List Char) : Prop := name ++ [' '] <+: Text.trim line

/-- The line says what the name is: the name, the word `is`, more white space and the value. -/
def Says (name value line : List Char) : Prop :=
  ∃ blanks, Text.AreBlank blanks ∧ Text.trim line = name ++ (" is ".toList ++ (blanks ++ value))

/-- A line that says what a name is starts with the name. -/
theorem Says.mentions {name value line : List Char} (h : Says name value line) :
    Mentions name line := by
  obtain ⟨blanks, -, hline⟩ := h
  exact ⟨"is ".toList ++ (blanks ++ value), by rw [hline]; simp⟩

/-- A line mentions a name that it starts with, if a blank follows. -/
theorem mentions_iff {name line : List Char} :
    Mentions name line ↔ ∃ rest, Text.strip? name (Text.trim line) = some (' ' :: rest) := by
  simp only [Text.strip?_eq_some_iff]
  constructor
  · rintro ⟨rest, hline⟩
    exact ⟨rest, by rw [← hline]; simp⟩
  · rintro ⟨rest, hline⟩
    exact ⟨rest, by rw [hline]; simp⟩

/-- What is read after the name and the word `is`, and then trimmed, is what the line says. -/
theorem exists_strip?_iff {name value line : List Char} (hvalue : Text.IsTrimmed value) :
    (∃ after, Text.strip? name (Text.trim line) = some after ∧
      ∃ rest, Text.strip? " is ".toList after = some rest ∧ Text.trim rest = value) ↔
      Says name value line := by
  simp only [Text.strip?_eq_some_iff]
  constructor
  · rintro ⟨_, hline, rest, rfl, hrest⟩
    rw [← List.append_assoc] at hline
    obtain ⟨-, blanks, hblanks, heq⟩ := Text.exists_trim_rest_iff.mp ⟨rest, hline, hrest⟩
    exact ⟨blanks, hblanks, heq.trans (List.append_assoc ..)⟩
  · rintro ⟨blanks, hblanks, hline⟩
    rw [← List.append_assoc] at hline
    obtain ⟨rest, heq, hrest⟩ := Text.exists_trim_rest_iff.mpr ⟨hvalue, blanks, hblanks, hline⟩
    exact ⟨" is ".toList ++ rest, heq.trans (List.append_assoc ..), rest, rfl, hrest⟩

/-! ### Comments on one line -/

/-- The text of a line comment is its one line. -/
theorem linesOf_lineComment (line : List Char) :
    linesOf ("// ".toList ++ line) = [line] := rfl

private theorem lines_of_notMem {cs : List Char} (hne : cs ≠ []) (h : '\n' ∉ cs) :
    Text.lines cs = [cs] := by
  rw [Text.lines, Text.pieces_of_notMem h]
  exact if_neg (by simpa using hne)

/-- The text of a block comment without a line feed is one line, less the blanks around it. -/
theorem linesOf_blockComment {line : List Char} (htrimmed : Text.IsTrimmed line)
    (h : '\n' ∉ line) : linesOf ("/* ".toList ++ (line ++ " */".toList)) = [line] := by
  have hbody : blockBody? ("/* ".toList ++ (line ++ " */".toList)) =
      some ([' '] ++ (line ++ [' '])) := by
    have hopen : Text.strip? ['/', '*'] ("/* ".toList ++ (line ++ " */".toList)) =
      some ([' '] ++ (line ++ " */".toList)) := rfl
    rw [blockBody?, hopen, Option.bind_some, Text.stripEnd?_eq_some_iff]
    simp
  have hblock : linesOf ("/* ".toList ++ (line ++ " */".toList)) =
      (Text.lines ([' '] ++ (line ++ [' ']))).map Text.trim := by
    rw [linesOf, hbody]
    rfl
  rw [hblock, lines_of_notMem (by simp) (by simp [h]), List.map_singleton,
    Text.trim_surrounded Text.areBlank_space htrimmed Text.areBlank_space]

end GoPages.CommentGroup
