import GoPages.Json.Magnitude

/-!
# Limits of JSON values

* A value of which every part is read, and none skipped, has to be `readable`: its strings have a
  text, and its numbers are within the range of double precision.
* `crop` makes what is nested too deeply unreadable. `parseCropped?` reads a text of which no more
  than `maxHeight` nested arrays and objects can be read; what is skipped may nest deeper.
-/

namespace GoPages.Json

/-- The greatest number of nested arrays and objects that can be read. -/
def maxHeight : Nat := 127

/-- The digits of a numeral before and after its point, and its exponent of ten. -/
def numeralParts (cs : List Char) : List Char × List Char × Int :=
  let isMark (c : Char) : Bool := c == 'e' || c == 'E'
  let mantissa := cs.takeWhile (!isMark ·)
  let whole := (mantissa.takeWhile (· != '.')).filter Char.isDigit
  let fraction := (mantissa.dropWhile (· != '.')).filter Char.isDigit
  let exponent := (cs.dropWhile (!isMark ·)).drop 1
  let size : Int := ofDigits (exponent.filter Char.isDigit)
  (whole, fraction, if exponent.head? = some '-' then -size else size)

/-- Is a numeral within the range of double precision? -/
def numeralInRange (text : String) : Bool :=
  let (whole, fraction, exponent) := numeralParts text.toList
  (Magnitude.ofDigits whole fraction exponent).isFinite

/-- Is a natural number within the range of double precision? -/
def naturalInRange (n : Nat) : Bool :=
  n < Nat.pow 2 64 || (Magnitude.ofDigits (Nat.toDigits 10 n) [] 0).isFinite

mutual

/-- Can every part of the value be read? -/
def readable : Json → Bool
  | unreadable => false
  | natural n => naturalInRange n
  | numeral text => numeralInRange text
  | arr items => readableItems items
  | obj members => readableMembers members
  | _ => true

/-- Can every part of the items be read? -/
def readableItems : List Json → Bool
  | [] => true
  | item :: items => readable item && readableItems items

/-- Can every part of the members be read? -/
def readableMembers : List (String × Json) → Bool
  | [] => true
  | (_, value) :: members => readable value && readableMembers members

end

mutual

/-- The value, where every array and object inside `levels` others is unreadable. -/
def crop (levels : Nat) : Json → Json
  | arr items =>
    match levels with
    | 0 => unreadable
    | levels + 1 => arr (cropItems levels items)
  | obj members =>
    match levels with
    | 0 => unreadable
    | levels + 1 => obj (cropMembers levels members)
  | value => value

/-- The items, each cropped. -/
def cropItems (levels : Nat) : List Json → List Json
  | [] => []
  | item :: items => crop levels item :: cropItems levels items

/-- The members, each with its value cropped. -/
def cropMembers (levels : Nat) : List (String × Json) → List (String × Json)
  | [] => []
  | (key, value) :: members => (key, crop levels value) :: cropMembers levels members

end

/-- The value that a text denotes, without what is nested too deeply. -/
def parseCropped? (text : String) : Option Json := (parse? text).map (crop maxHeight)

end GoPages.Json
