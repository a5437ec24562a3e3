import GoPages.CommentGroup

/-!
# Event subjects

The subject of an event stands in its doc comment, in quotes after its name and the word `is`.
`Subject.ofComment` looks at the first line that starts with the name; that line decides.
-/

namespace GoPages

/-- What a doc comment says about the subject of an event. -/
inductive Subject where
  | valid (subject : String)
  | missingComment
  /-- No line starts with the name and the word `is`. -/
  | invalidComment
  /-- The subject is not quoted, or empty. -/
  | invalidSubject
deriving DecidableEq, Inhabited

namespace Subject

/-- What stands between double quotes at the ends of a text. -/
def unquoted? (cs : List Char) : Option (List Char) :=
  (Text.strip? ['"'] cs).bind (Text.stripEnd? ['"'])

/-- The subject in the rest of a line after the name. -/
def ofLine (afterName : List Char) : Subject :=
  match Text.strip? " is ".toList afterName with
  | none => .invalidComment
  | some rest =>
    match unquoted? (Text.trim rest) with
    | some (c :: cs) => .valid (String.ofList (c :: cs))
    | _ => .invalidSubject

/-- The rest of a line after the name, if the line starts with the name and a space. -/
def afterName? (name : List Char) (line : List Char) : Option (List Char) :=
  match Text.strip? name (Text.trim line) with
  | some (' ' :: rest) => some (' ' :: rest)
  | _ => none

/-- What a doc comment says about the subject of the event `name`. -/
def ofComment (name : String) : Option CommentGroup → Subject
  | none => .missingComment
  | some doc =>
    match doc.textLines.findSome? (afterName? name.toList) with
    | some rest => ofLine rest
    | none => .invalidComment

end Subject

end GoPages
