import GoPages.Location
import GoPages.Text.Lines

/-!
# Doc comments

A `CommentGroup` is a run of comments, each with its markers. `CommentGroup.textLines` is its text:
a line comment is one line, without its marker and one space after it, and a block comment has a
line for each of its lines, trimmed.
-/

namespace GoPages

/-- A run of comments with the location of the first one. -/
structure CommentGroup where
  comments : List String
  location : Location
deriving DecidableEq, Inhabited

namespace CommentGroup

/-- What stands between the markers of a block comment. -/
def blockBody? (comment : List Char) : Option (List Char) :=
  (Text.strip? ['/', '*'] comment).bind (Text.stripEnd? ['*', '/'])

/-- The lines of text of one comment. -/
def linesOf (comment : List Char) : List (List Char) :=
  match Text.strip? ['/', '/'] comment with
  | some body => [(Text.strip? [' '] body).getD body]
  | none =>
    match blockBody? comment with
    | some body => (Text.lines body).map Text.trim
    | none => []

/-- The lines of text of a group of comments. -/
def textLines (group : CommentGroup) : List (List Char) :=
  group.comments.flatMap fun comment => linesOf comment.toList

end CommentGroup

end GoPages
