import GoPages.Text.Pieces

/-!
# Locations in source files

A `Location` is a file name with a line and a column, both counted from one, the column in bytes.
A location without a file name or with line zero is unknown.

* `Location.advance` and `Location.skip` move over a piece of the file's text: `advance` begins a
  new line after every line feed, `skip` stays on its line.
* `Location.normalized` keeps the base name of the file alone, so that nothing depends on the
  directory that the file was read from.
* `Location.before` orders known locations by file, line and column, and before all unknown ones.
-/

namespace GoPages

/-- A place in a source file. -/
structure Location where
  file : String
  line : Nat
  column : Nat
deriving DecidableEq, Inhabited

namespace Location

/-- The location of what has no place in a file. -/
def unknown : Location := ⟨"", 0, 0⟩

/-- Does the location have a file name and a line? -/
def isKnown (l : Location) : Bool := l.file != "" && 0 < l.line

/-! ### Moving over text -/

/-- The number of bytes of a text in UTF-8. -/
def byteCount : List Char → Nat
  | [] => 0
  | c :: cs => c.utf8Size + byteCount cs

/-- The bytes of a text are those of its parts. -/
theorem byteCount_append (cs ds : List Char) :
    byteCount (cs ++ ds) = byteCount cs + byteCount ds := by
  induction cs with
  | nil => simp [byteCount]
  | cons c cs ih => simp [byteCount, ih, Nat.add_assoc]

/-- The location after `cs`, on the same line whatever `cs` holds. -/
def skip (l : Location) (cs : List Char) : Location := { l with column := l.column + byteCount cs }

/-- The location after one character. -/
def next (l : Location) (c : Char) : Location :=
  if c = '\n' then { l with line := l.line + 1, column := 1 }
  else { l with column := l.column + c.utf8Size }

/-- The location after `cs`, where every line feed begins a new line. -/
def advance (l : Location) (cs : List Char) : Location := cs.foldl next l

@[simp] theorem advance_nil (l : Location) : l.advance [] = l := rfl

@[simp] theorem advance_cons (l : Location) (c : Char) (cs : List Char) :
    l.advance (c :: cs) = (l.next c).advance cs := rfl

/-! ### Base names -/

/-- The steps of a path: its pieces between slashes, without empty ones and without `.`. -/
def pathSteps (path : String) : List (List Char) :=
  (Text.pieces '/' path.toList).filter fun step => step != [] && step != ['.']

/-- The last step of a path. A path that has none, or that ends by going up, is its own base
name. -/
def baseName (path : String) : String :=
  match (pathSteps path).getLast? with
  | some ['.', '.'] => path
  | some step => String.ofList step
  | none => path

/-- The location with the base name of its file. -/
def normalized (l : Location) : Location :=
  if l.isKnown then { l with file := baseName l.file } else unknown

/-! ### Order -/

/-- Does `l` stand strictly before `m`? Two unknown locations stand in neither order. -/
def before (l m : Location) : Bool :=
  match l.isKnown, m.isKnown with
  | true, false => true
  | true, true =>
    l.file < m.file ||
      (l.file == m.file && (l.line < m.line || (l.line == m.line && l.column < m.column)))
  | false, _ => false

/-- The order of two locations. -/
def compare (l m : Location) : Ordering :=
  if l.before m then .lt else if m.before l then .gt else .eq

/-- The location as it stands in messages. -/
def text (l : Location) : String :=
  if l.isKnown then l.file ++ ":" ++ Nat.repr l.line ++ ":" ++ Nat.repr l.column
  else "<unknown>"

end Location

end GoPages
