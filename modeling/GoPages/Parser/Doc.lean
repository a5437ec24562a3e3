import GoPages.Token
import GoPages.CommentGroup

/-!
# The doc comment of a declaration

`docComment` finds the comments that document a declaration: the longest run of comments that ends
on the line above the declaration, has no blank line in it, and starts after the line of the token
before the declaration.
-/

namespace GoPages

/-- The comments of `run` with the comments before them that belong to the same run. The comments in
`earlier` stand in reverse order. -/
def extendRun (prevLine : Nat) (first : Comment) (run : List Comment) :
    (earlier : List Comment) → Comment × List Comment
  | [] => (first, run)
  | c :: earlier =>
    if c.endLine + 1 < first.location.line ∨ c.location.line ≤ prevLine then (first, run)
    else extendRun prevLine c (c :: run) earlier

/-- The doc comment of a declaration on line `line`, where the token before it stands on line
`prevLine`. -/
def docComment (comments : List Comment) (prevLine line : Nat) : Option CommentGroup :=
  match comments.reverse.dropWhile fun c => line ≤ c.endLine with
  | [] => none
  | last :: earlier =>
    if last.endLine + 1 = line then
      let (first, run) := extendRun prevLine last [last] earlier
      if first.location.line ≤ prevLine then none
      else some ⟨run.map Comment.text, first.location⟩
    else none

end GoPages
