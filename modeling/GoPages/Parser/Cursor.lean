import GoPages.Token.Lexer
import GoPages.TypeExpr

/-!
# Reading tokens

A `Cursor` stands in the tokens of a file: it holds the tokens that are left before the end, the end
itself, and the line of the token before. A `Parser` reads on from a cursor and gives a value and
the cursor after it, or a `SyntaxError`.

* `Cursor.tok` and `Cursor.peek` look at tokens; beyond the end there is always the end of the file.
* `Parser.many` repeats a step until it answers that nothing is left. A step that goes on must have
  read a token, so that fewer tokens are left; one that has not ends with the fault `stalled`.
-/

namespace GoPages

/-- The ways in which a file can fail to be a Go file. -/
inductive SyntaxFault where
  | lexical (fault : LexFault)
  | expected (what found : String)
  | unbalancedBrackets
  | invalidImportPath (literal : String)
  | invalidStructTag (literal : String)
  | misplacedImport
  | notADeclaration (found : String)
  | multipleReceivers
  | mixedParameters
  | nestedTooDeeply
  /-- A repeated step has read nothing. -/
  | stalled
deriving DecidableEq

/-- The wording of a fault. -/
def SyntaxFault.message : SyntaxFault → String
  | lexical fault => fault.message
  | expected what found => "expected " ++ what ++ ", found " ++ found
  | unbalancedBrackets => "unbalanced brackets"
  | invalidImportPath literal => "invalid import path " ++ literal
  | invalidStructTag literal => "invalid struct tag " ++ literal
  | misplacedImport => "imports must appear before other declarations"
  | notADeclaration found =>
    "non-declaration statement outside function body, found " ++ found
  | multipleReceivers => "method has multiple receivers"
  | mixedParameters => "mixed named and unnamed parameters"
  | nestedTooDeeply => "type expression nested too deeply"
  | stalled => "no progress"

/-- A fault with its location. -/
structure SyntaxError where
  fault : SyntaxFault
  location : Location
deriving DecidableEq

/-- The wording of an error. -/
def SyntaxError.message (e : SyntaxError) : String := e.fault.message

/-- A place among the tokens of a file. -/
structure Cursor where
  /-- The line of the token before, zero at the start of the file. -/
  prevLine : Nat
  /-- The tokens that are left, without the end of the file. -/
  left : List Token
  /-- The location of the end of the file. -/
  finish : Location

namespace Cursor

/-- The cursor at the start of a file. -/
def start (lexed : Lexed) : Cursor := ⟨0, lexed.tokens, lexed.finish⟩

/-- The number of tokens that are left. -/
def size (c : Cursor) : Nat := c.left.length

/-- The first token of a list, or the end of the file. -/
def firstOf (c : Cursor) : List Token → Token
  | [] => Token.endOfFile c.finish
  | t :: _ => t

/-- The next token. -/
def tok (c : Cursor) : Token := c.firstOf c.left

/-- The token `n` places after the next one. -/
def peek (c : Cursor) (n : Nat) : Token := c.firstOf (c.left.drop n)

/-- The cursor after the next token. It stays at the end of the file. -/
def advance (c : Cursor) : Cursor :=
  match c.left with
  | [] => c
  | t :: rest => { c with prevLine := t.location.line, left := rest }

/-- The cursor after the tokens `read`, before the tokens `rest`. -/
def after (c : Cursor) (read rest : List Token) : Cursor :=
  { c with
    prevLine := match read.getLast? with
      | some t => t.location.line
      | none => c.prevLine
    left := rest }

end Cursor

/-- Reads a value from a cursor. -/
abbrev Parser := StateT Cursor (Except SyntaxError)

namespace Parser

/-- Gives a value that depends on the cursor, and reads nothing. -/
def look {α : Type} (f : Cursor → α) : Parser α := fun c => .ok (f c, c)

/-- The next token, which is not read. -/
def tok : Parser Token := look Cursor.tok

/-- Reads one token. -/
def advance : Parser Unit := fun c => .ok ((), c.advance)

/-- Fails at a location. -/
def failAt {α : Type} (l : Location) (fault : SyntaxFault) : Parser α := fun _ => .error ⟨fault, l⟩

/-- Fails at the next token. -/
def fail {α : Type} (fault : SyntaxFault) : Parser α := fun c => .error ⟨fault, c.tok.location⟩

/-- Fails at the next token, because it is not what was expected. -/
def failExpected {α : Type} (what : String) : Parser α :=
  fun c => .error ⟨.expected what c.tok.describe, c.tok.location⟩

/-- Reads an operator or bracket. -/
def op (text : String) : Parser Unit := fun c =>
  if c.tok.isOp text then advance c else failExpected ("'" ++ text ++ "'") c

/-- Reads an identifier. -/
def ident : Parser Ident := fun c =>
  if c.tok.kind = .ident then .ok (⟨c.tok.text, c.tok.location⟩, c.advance)
  else failExpected "identifier" c

/-- A name is read from a token of its kind, and takes one token. -/
theorem ident_eq_ok_iff {c c' : Cursor} {id : Ident} :
    ident c = .ok (id, c') ↔
      c.tok.kind = .ident ∧ id = ⟨c.tok.text, c.tok.location⟩ ∧ c' = c.advance := by
  rw [ident]
  split
  · next hkind => simp [hkind, eq_comm]
  · next hkind => simp [hkind, failExpected]

/-- Reads the end of a declaration: a semicolon, or nothing before a closing bracket or at the end
of the file. -/
def endOfItem : Parser Unit := fun c =>
  if c.tok.kind = .semicolon then advance c
  else if c.tok.kind = .eof ∨ c.tok.isOp ")" ∨ c.tok.isOp "\x7d" then .ok ((), c)
  else failExpected "';' or newline" c

/-- Reads all semicolons. -/
def skipSemicolons : Parser Unit := fun c =>
  let isSemicolon (t : Token) : Bool := t.kind == .semicolon
  .ok ((), c.after (c.left.takeWhile isSemicolon) (c.left.dropWhile isSemicolon))

/-- The values of a step that is repeated until it answers `none`. -/
def manyFrom {α : Type} (step : Parser (Option α)) (c : Cursor) :
    Except SyntaxError (List α × Cursor) :=
  match step c with
  | .error e => .error e
  | .ok (none, c') => .ok ([], c')
  | .ok (some a, c') =>
    if c'.size < c.size then
      match manyFrom step c' with
      | .error e => .error e
      | .ok (as, c'') => .ok (a :: as, c'')
    else fail .stalled c
termination_by c.size

/-- Repeats a step until it answers `none`, and collects its values. -/
def many {α : Type} (step : Parser (Option α)) : Parser (List α) := manyFrom step

end Parser

end GoPages
