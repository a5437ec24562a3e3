import GoPages.Json

/-!
# Reading JSON

`Json.parse?` reads one value with white space around it and nothing else. The grammar is that of
the standard, without leading zeros, trailing commas, comments or control characters in strings.

Two escapes that form a surrogate pair denote one character. An escape for one half alone denotes no
character; a string with such an escape, or an object with such a key, is read as `Json.unreadable`.
-/

namespace GoPages.Json

/-- Blanks between the parts of a value. -/
def isSpace (c : Char) : Bool := c == ' ' || c == '\t' || c == '\n' || c == '\r'

/-- The text without the blanks at its start. -/
def skipSpace (cs : List Char) : List Char := cs.dropWhile isSpace

/-- The value of a hexadecimal digit. -/
def hexDigit? (c : Char) : Option Nat :=
  if '0' ≤ c ∧ c ≤ '9' then some (c.toNat - '0'.toNat)
  else if 'a' ≤ c ∧ c ≤ 'f' then some (c.toNat - 'a'.toNat + 10)
  else if 'A' ≤ c ∧ c ≤ 'F' then some (c.toNat - 'A'.toNat + 10)
  else none

/-- Four hexadecimal digits as a number. -/
def fourHex? (a b c d : Char) : Option Nat := do
  let a ← hexDigit? a
  let b ← hexDigit? b
  let c ← hexDigit? c
  let d ← hexDigit? d
  return ((a * 16 + b) * 16 + c) * 16 + d

/-- Is the code unit the first half of a surrogate pair? -/
def isHighHalf (n : Nat) : Bool := 0xd800 ≤ n && n < 0xdc00

/-- Is the code unit the second half of a surrogate pair? -/
def isLowHalf (n : Nat) : Bool := 0xdc00 ≤ n && n < 0xe000

/-- A character of a string: a code point, or half of a surrogate pair that stands alone. -/
abbrev StringUnit := Option Char

/-- The character that a letter after a backslash stands for. -/
def shortEscape? : Char → Option Char
  | '"' => some '"'
  | '\\' => some '\\'
  | '/' => some '/'
  | 'b' => some '\x08'
  | 'f' => some '\x0c'
  | 'n' => some '\n'
  | 'r' => some '\r'
  | 't' => some '\t'
  | _ => none

/-- The escape of a second half at the start of the text, with what follows it. -/
def lowHalf? : List Char → Option (Nat × List Char)
  | '\\' :: 'u' :: a :: b :: c :: d :: rest =>
    match fourHex? a b c d with
    | some low => if isLowHalf low then some (low, rest) else none
    | none => none
  | _ => none

/-- Reads the units of a string up to its closing quote. The first argument bounds the number of
units and is at least the length of the text. -/
def stringUnits? : Nat → List Char → Option (List StringUnit × List Char)
  | 0, _ => none
  | _, [] => none
  | _, '"' :: rest => some ([], rest)
  | fuel + 1, '\\' :: 'u' :: a :: b :: c :: d :: rest => do
    let unit ← fourHex? a b c d
    -- two halves in turn are one character; a half alone is none, but it is not an error here
    if isHighHalf unit then
      match lowHalf? rest with
      | some (low, rest) =>
        let (units, rest) ← stringUnits? fuel rest
        return (some (Char.ofNat (0x10000 + (unit - 0xd800) * 0x400 + (low - 0xdc00))) :: units, rest)
      | none =>
        let (units, rest) ← stringUnits? fuel rest
        return (none :: units, rest)
    else
      let (units, rest) ← stringUnits? fuel rest
      return ((if isLowHalf unit then none else some (Char.ofNat unit)) :: units, rest)
  | fuel + 1, '\\' :: letter :: rest => do
    let c ← shortEscape? letter
    let (units, rest) ← stringUnits? fuel rest
    return (some c :: units, rest)
  | fuel + 1, c :: rest =>
    if c == '\\' || c.toNat < 0x20 then none
    else do
      let (units, rest) ← stringUnits? fuel rest
      return (some c :: units, rest)

/-- Reads a string after its opening quote: its text, if it has one, and what follows it. -/
def string? (cs : List Char) : Option (Option String × List Char) := do
  let (units, rest) ← stringUnits? (cs.length + 1) cs
  return ((units.mapM id).map String.ofList, rest)

/-- Reads at least one digit. -/
def digits? (cs : List Char) : Option (List Char × List Char) :=
  match cs.takeWhile Char.isDigit with
  | [] => none
  | ds => some (ds, cs.dropWhile Char.isDigit)

/-- Reads the digits before a fraction: a zero, or digits that start with another one. -/
def wholePart? : List Char → Option (List Char × List Char)
  | '0' :: rest => if (rest.head?.map Char.isDigit).getD false then none else some (['0'], rest)
  | cs => digits? cs

/-- Reads the fraction of a number, which may be missing. -/
def fraction? : List Char → Option (List Char × List Char)
  | '.' :: rest => (digits? rest).map fun (ds, rest) => ('.' :: ds, rest)
  | cs => some ([], cs)

/-- Reads the exponent of a number, which may be missing. -/
def exponent? : List Char → Option (List Char × List Char)
  | e :: rest =>
    if e == 'e' || e == 'E' then
      match rest with
      | sign :: digits =>
        if sign == '+' || sign == '-' then
          (digits? digits).map fun (ds, rest) => (e :: sign :: ds, rest)
        else (digits? rest).map fun (ds, rest) => (e :: ds, rest)
      | [] => none
    else some ([], e :: rest)
  | [] => some ([], [])

/-- Reads a number without its sign: the digits before a fraction and the rest of the numeral. -/
def unsigned? (cs : List Char) : Option ((List Char × List Char) × List Char) := do
  let (whole, rest) ← wholePart? cs
  let (fraction, rest) ← fraction? rest
  let (exponent, rest) ← exponent? rest
  return ((whole, fraction ++ exponent), rest)

/-- The number that decimal digits denote. -/
def ofDigits (ds : List Char) : Nat := ds.foldl (fun n d => n * 10 + (d.toNat - '0'.toNat)) 0

/-- Reads a number. -/
def number? : List Char → Option (Json × List Char)
  | '-' :: rest => do
    let ((whole, tail), rest) ← unsigned? rest
    return (numeral (String.ofList ('-' :: whole ++ tail)), rest)
  | cs => do
    let ((whole, tail), rest) ← unsigned? cs
    if tail.isEmpty then return (natural (ofDigits whole), rest)
    else return (numeral (String.ofList (whole ++ tail)), rest)

/-- The object with the given members. A key without a text makes it unreadable. -/
def ofMembers (members : List (Option String × Json)) : Json :=
  match members.mapM fun (key, value) => key.map (·, value) with
  | some members => obj members
  | none => unreadable

mutual

/-- Reads a value after the blanks before it. The first argument bounds the number of steps and is
more than twice the length of the text. -/
def value? : Nat → List Char → Option (Json × List Char)
  | 0, _ => none
  | fuel + 1, cs =>
    match skipSpace cs with
    | 'n' :: 'u' :: 'l' :: 'l' :: rest => some (null, rest)
    | 't' :: 'r' :: 'u' :: 'e' :: rest => some (bool true, rest)
    | 'f' :: 'a' :: 'l' :: 's' :: 'e' :: rest => some (bool false, rest)
    | '"' :: rest => (string? rest).map fun (text, rest) => ((text.map str).getD unreadable, rest)
    | '[' :: rest =>
      match skipSpace rest with
      | ']' :: rest => some (arr [], rest)
      | rest => (items? fuel rest).map fun (items, rest) => (arr items, rest)
    | '\x7b' :: rest =>
      match skipSpace rest with
      | '\x7d' :: rest => some (obj [], rest)
      | rest => (members? fuel rest).map fun (members, rest) => (ofMembers members, rest)
    | cs => number? cs

/-- Reads the items of an array, at least one, up to its closing bracket. -/
def items? : Nat → List Char → Option (List Json × List Char)
  | 0, _ => none
  | fuel + 1, cs => do
    let (item, rest) ← value? fuel cs
    match skipSpace rest with
    | ',' :: rest =>
      let (items, rest) ← items? fuel rest
      return (item :: items, rest)
    | ']' :: rest => return ([item], rest)
    | _ => none

/-- Reads the members of an object, at least one, up to its closing brace. -/
def members? : Nat → List Char → Option (List (Option String × Json) × List Char)
  | 0, _ => none
  | fuel + 1, cs => do
    let '"' :: rest := skipSpace cs | none
    let (key, rest) ← string? rest
    let ':' :: rest := skipSpace rest | none
    let (value, rest) ← value? fuel rest
    match skipSpace rest with
    | ',' :: rest =>
      let (members, rest) ← members? fuel rest
      return ((key, value) :: members, rest)
    | '\x7d' :: rest => return ([(key, value)], rest)
    | _ => none

end

/-- The value that a text denotes, if it is a JSON text. -/
def parse? (text : String) : Option Json := do
  let cs := text.toList
  let (value, rest) ← value? (2 * cs.length + 2) cs
  if (skipSpace rest).isEmpty then some value else none

end GoPages.Json
