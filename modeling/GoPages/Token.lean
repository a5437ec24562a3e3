import GoPages.Location
import GoPages.Text.Quoted

/-!
# Tokens and comments

A `Token` is a lexical element of Go with its text and the location of its first byte; a `Comment`
also has the line of its last byte. A semicolon that the line structure implies has a line feed for
its text, and the end of the file is a token with the empty text.
-/

namespace GoPages

/-- The kinds of tokens. -/
inductive TokenKind where
  | ident
  | keyword
  | number
  /-- A rune literal. -/
  | char
  | string
  | op
  | semicolon
  | eof
deriving DecidableEq, Inhabited

/-- A lexical element. -/
structure Token where
  kind : TokenKind
  text : String
  location : Location
deriving DecidableEq, Inhabited

/-- A comment, its text with the markers. -/
structure Comment where
  text : String
  location : Location
  endLine : Nat
deriving DecidableEq, Inhabited

namespace Token

/-- Is the token the operator or bracket `op`? -/
def isOp (t : Token) (op : String) : Bool := t.kind == .op && t.text == op

/-- Is the token the keyword `word`? -/
def isKeyword (t : Token) (word : String) : Bool := t.kind == .keyword && t.text == word

/-- The semicolon that the line structure implies at a location. -/
def impliedSemicolon (l : Location) : Token := ⟨.semicolon, "\n", l⟩

/-- The end of the file. -/
def endOfFile (l : Location) : Token := ⟨.eof, "", l⟩

/-- The token as messages name it. -/
def describe (t : Token) : String :=
  match t.kind with
  | .eof => "EOF"
  | .semicolon => if t.text = "\n" then "newline" else Text.quote t.text
  | _ => Text.quote t.text

end Token

/-- The 25 keywords. -/
def keywords : List String :=
  ["break", "case", "chan", "const", "continue", "default", "defer", "else", "fallthrough", "for",
   "func", "go", "goto", "if", "import", "interface", "map", "package", "range", "return", "select",
   "struct", "switch", "type", "var"]

/-- The operators, brackets and separators, every one before its own beginnings. -/
def operators : List String :=
  ["<<=", ">>=", "&^=", "...", "&&", "||", "<-", "++", "--", "==", "!=", "<=", ">=", ":=", "+=",
   "-=", "*=", "/=", "%=", "&=", "|=", "^=", "<<", ">>", "&^", "+", "-", "*", "/", "%", "&", "|",
   "^", "<", ">", "=", "!", "(", ")", "[", "]", "\x7b", "\x7d", ",", ";", ".", ":", "~"]

/-- May a statement end with a token of this kind and text? A line that ends with such a token has
an implied semicolon. -/
def endsStatement (kind : TokenKind) (text : String) : Bool :=
  match kind with
  | .ident | .number | .char | .string => true
  | .keyword => ["break", "continue", "fallthrough", "return"].contains text
  | .op => ["++", "--", ")", "]", "\x7d"].contains text
  | .semicolon | .eof => false

end GoPages
