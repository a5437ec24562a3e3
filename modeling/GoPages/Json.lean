/-!
# JSON values

`Json` is the value that a JSON text denotes, as far as the decoders of this library can tell values
apart: the members of an object keep their order and their repetitions, a natural number is a number
written with digits alone, and every other number is kept as written.

* `Json.height` counts the nested arrays and objects on the longest path.
* `Json.ofOption` writes an absent value as `null`.
-/

namespace GoPages

/-- A JSON value. -/
inductive Json where
  | null
  | bool (value : Bool)
  /-- A number written with digits alone. -/
  | natural (value : Nat)
  /-- A number with a sign, a fraction or an exponent, as written. -/
  | numeral (text : String)
  | str (value : String)
  /-- What can be skipped but not read: a string with an escape for half of a surrogate pair, an
  object with such a key, or a value that is nested too deeply. -/
  | unreadable
  | arr (items : List Json)
  | obj (members : List (String × Json))

namespace Json

instance : Inhabited Json := ⟨null⟩

mutual

/-- The number of nested arrays and objects on the longest path into the value. -/
def height : Json → Nat
  | arr items => heightItems items + 1
  | obj members => heightMembers members + 1
  | _ => 0

/-- The greatest height among the items of an array. -/
def heightItems : List Json → Nat
  | [] => 0
  | item :: items => max (height item) (heightItems items)

/-- The greatest height among the members of an object. -/
def heightMembers : List (String × Json) → Nat
  | [] => 0
  | (_, value) :: members => max (height value) (heightMembers members)

end

/-- An absent value is written `null`. -/
def ofOption {α : Type} (encode : α → Json) : Option α → Json
  | none => null
  | some a => encode a

/-- A list is written as an array. -/
def ofList {α : Type} (encode : α → Json) (as : List α) : Json := arr (as.map encode)

end Json

end GoPages
