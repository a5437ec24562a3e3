import GoPages.Json

/-!
# Records in JSON

A record is written as an object, or as the array of its fields in the order of their declaration.
`Json.record?` brings both forms into one: the list of the named fields that are present.

* In an object, members with other keys are ignored and a named field may not be repeated.
* In an array, the fields at the end may be missing down to a least number, and none may be added.

The rest of the module reads the fields of a record and the simple values.
-/

namespace GoPages.Json

/-- The named values of a record. -/
abbrev Record := List (String × Json)

/-- The members with the given keys, unless one of these keys is repeated. -/
def namedMembers? (keys : List String) (members : List (String × Json)) : Option Record :=
  let named := members.filter fun member => keys.contains member.1
  if (keys.all fun key => (named.filter fun member => member.1 == key).length ≤ 1) then some named
  else none

/-- The fields of a record with the given keys. An array has at least `least` items. -/
def record? (keys : List String) (least : Nat) : Json → Option Record
  | obj members => namedMembers? keys members
  | arr items =>
    if least ≤ items.length ∧ items.length ≤ keys.length then some (keys.zip items) else none
  | _ => none

/-- The value of a field. -/
def Record.get? (record : Record) (key : String) : Option Json := record.lookup key

/-- Decodes a field that has to be present. -/
def Record.required {α : Type} (record : Record) (key : String) (decode : Json → Option α) :
    Option α :=
  (record.get? key).bind decode

/-- Decodes a field that may be missing or null. -/
def Record.optional {α : Type} (record : Record) (key : String) (decode : Json → Option α) :
    Option (Option α) :=
  match record.get? key with
  | none => some none
  | some null => some none
  | some value => (decode value).map some

/-- Decodes a field that has a default, which stands for a missing field only. -/
def Record.withDefault {α : Type} (record : Record) (key : String) (a : α)
    (decode : Json → Option α) :
    Option α :=
  match record.get? key with
  | none => some a
  | some value => decode value

/-! ### Simple values -/

/-- Reads a string. -/
def string : Json → Option String
  | str s => some s
  | _ => none

/-- Reads a truth value. -/
def boolean : Json → Option Bool
  | bool b => some b
  | _ => none

/-- Reads a natural number below `2 ^ 32`. -/
def word : Json → Option Nat
  | natural n => if n < Nat.pow 2 32 then some n else none
  | _ => none

/-- Reads an array item by item. -/
def list {α : Type} (decode : Json → Option α) : Json → Option (List α)
  | arr items => items.mapM decode
  | _ => none

/-- Reads one of several alternatives without content, by its name: a string, or an object whose
only member has the name as its key and null as its value. -/
def alternative {α : Type} (name : α → String) (as : List α) (value : Json) : Option α :=
  match value with
  | str text => as.find? fun a => name a == text
  | obj [(text, null)] => as.find? fun a => name a == text
  | _ => none

end GoPages.Json
