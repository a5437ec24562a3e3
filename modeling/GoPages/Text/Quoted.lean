import GoPages.Text.Extend
import GoPages.Text.Unprintable

/-!
# Quoted text

Messages and type texts show a piece of text between quotes, with escapes for what would not print.

* `escape mark c` is the written form of one character between quotes of the kind `mark`: the five
  short escapes, the mark itself after a backslash, an escape with the code point in lower-case
  hexadecimal for characters that cannot be seen on their own (`isHidden`), and else the character
  itself.
* `quote` writes a text between double quotes, `quoteChar` one character between single quotes.
-/

namespace GoPages.Text

/-- Is the character one of the Hangul fillers? These are letters that are drawn as blanks. -/
def isFiller (c : Char) : Bool :=
  c == '\u115f' || c == '\u1160' || c == '\u3164' || c == '\uffa0'

/-- Is the character one of the halfwidth voiced sound marks of katakana? They extend a grapheme,
but have a width of their own. -/
def isSoundMark (c : Char) : Bool := c == '\uff9e' || c == '\uff9f'

/-- Can the character not be seen on its own? -/
def isHidden (c : Char) : Bool := (isExtend c && !isSoundMark c) || isFiller c || isUnprintable c

/-- The escape by code point: `u`, then the lower-case hexadecimal digits between braces. -/
def escapeCode (c : Char) : List Char :=
  '\\' :: 'u' :: '\x7b' :: Nat.toDigits 16 c.toNat ++ ['\x7d']

/-- The written form of one character between quotes of the kind `mark`. -/
def escape (mark c : Char) : List Char :=
  if c = '\x00' then ['\\', '0']
  else if c = '\t' then ['\\', 't']
  else if c = '\r' then ['\\', 'r']
  else if c = '\n' then ['\\', 'n']
  else if c = '\\' ∨ c = mark then ['\\', c]
  else if isHidden c then escapeCode c
  else [c]

/-- A text between double quotes. -/
def quote (s : String) : String :=
  String.ofList ('"' :: s.toList.flatMap (escape '"') ++ ['"'])

/-- A character between single quotes. -/
def quoteChar (c : Char) : String :=
  String.ofList ('\'' :: escape '\'' c ++ ['\''])

end GoPages.Text
