import GoPages.Json

/-!
# Writing JSON

`Json.compact` writes a value on one line without blanks, `Json.pretty` over several lines with two
blanks of indentation for each level. Both write the members of an object in their order, and an
empty array or object as two brackets without anything between them.
-/

namespace GoPages.Json

/-- The written form of one character of a string: the short escapes, four hexadecimal digits for
the other control characters, and else the character itself. -/
def escapeChar (c : Char) : List Char :=
  if c = '"' then ['\\', '"']
  else if c = '\\' then ['\\', '\\']
  else if c = '\x08' then ['\\', 'b']
  else if c = '\x0c' then ['\\', 'f']
  else if c = '\n' then ['\\', 'n']
  else if c = '\r' then ['\\', 'r']
  else if c = '\t' then ['\\', 't']
  else if c.toNat < 0x20 then
    ['\\', 'u', '0', '0', Nat.digitChar (c.toNat / 16), Nat.digitChar (c.toNat % 16)]
  else [c]

/-- A string between double quotes. -/
def quoted (s : String) : String :=
  String.ofList ('"' :: s.toList.flatMap escapeChar ++ ['"'])

/-- The text of a value that has no parts. -/
def scalar : Json → String
  | bool true => "true"
  | bool false => "false"
  | natural n => Nat.repr n
  | numeral text => text
  | str s => quoted s
  | _ => "null"

mutual

/-- The value on one line. -/
def compact : Json → String
  | arr items => "[" ++ String.intercalate "," (compactItems items) ++ "]"
  | obj members => "\x7b" ++ String.intercalate "," (compactMembers members) ++ "\x7d"
  | value => scalar value

/-- The items of an array, each on one line. -/
def compactItems : List Json → List String
  | [] => []
  | item :: items => compact item :: compactItems items

/-- The members of an object, each on one line. -/
def compactMembers : List (String × Json) → List String
  | [] => []
  | (key, value) :: members =>
    (quoted key ++ ":" ++ compact value) :: compactMembers members

end

/-- A new line, indented to a level. -/
def newLine (level : Nat) : String := "\n" ++ String.ofList (List.replicate (2 * level) ' ')

/-- The parts of an array or object between its brackets, each on a line of its own. -/
def block (level : Nat) (opening closing : String) : List String → String
  | [] => opening ++ closing
  | parts =>
    opening ++ newLine (level + 1) ++ String.intercalate ("," ++ newLine (level + 1)) parts
      ++ newLine level ++ closing

mutual

/-- The value over several lines, its first line standing at `level`. -/
def prettyAt (level : Nat) : Json → String
  | arr items => block level "[" "]" (prettyItems (level + 1) items)
  | obj members => block level "\x7b" "\x7d" (prettyMembers (level + 1) members)
  | value => scalar value

/-- The items of an array, standing at `level`. -/
def prettyItems (level : Nat) : List Json → List String
  | [] => []
  | item :: items => prettyAt level item :: prettyItems level items

/-- The members of an object, standing at `level`. -/
def prettyMembers (level : Nat) : List (String × Json) → List String
  | [] => []
  | (key, value) :: members =>
    (quoted key ++ ": " ++ prettyAt level value) :: prettyMembers level members

end

/-- The value over several lines. -/
def pretty (value : Json) : String := prettyAt 0 value

end GoPages.Json
