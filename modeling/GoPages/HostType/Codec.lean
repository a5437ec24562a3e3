import GoPages.HostType
import GoPages.Json.Limits
import GoPages.Json.Record

/-!
# Resolved types in JSON

A location is a record of file, line and column, the numbers below `2 ^ 32`. A resolved type is an
object whose member `kind` names the form of the type; the other members are a record of its parts.
An array may stand in place of the object, with the kind as its first item, and inside another type
the position of the kind among `HostType.kinds` may stand in place of its name.

`HostType.toJson` writes a type, `HostType.ofJson?` reads one.
-/

namespace GoPages

open Json (Record)

/-! ### Locations -/

/-- A location as a record. -/
def Location.toJson (l : Location) : Json :=
  .obj [("file", .str l.file), ("line", .natural l.line), ("column", .natural l.column)]

/-- Reads a location. -/
def Location.ofJson? (value : Json) : Option Location := do
  let r ← Json.record? ["file", "line", "column"] 3 value
  let file ← r.required "file" Json.string
  let line ← r.required "line" Json.word
  let column ← r.required "column" Json.word
  return ⟨file, line, column⟩

/-! ### Fields -/

/-- A field of a struct type as a record, given its type in JSON. -/
def structFieldJson (name : String) (embedded : Bool) (type : Json) (tag : String) (l : Location) :
    Json :=
  .obj [("name", .str name), ("embedded", .bool embedded), ("ty", type), ("tag", .str tag),
    ("location", l.toJson)]

/-- Reads a field of a struct type, given how its type is read. -/
def structFieldOfJson? {τ : Type} (typeOf : Json → Option τ) (value : Json) :
    Option (StructFieldOf τ) := do
  let r ← Json.record? ["name", "embedded", "ty", "tag", "location"] 5 value
  let name ← r.required "name" Json.string
  let embedded ← r.required "embedded" Json.boolean
  let type ← r.required "ty" typeOf
  let tag ← r.required "tag" Json.string
  let l ← r.required "location" Location.ofJson?
  return ⟨name, embedded, type, tag, l⟩

namespace HostType

/-! ### Writing types -/

/-- A type with its kind and its parts. -/
def tagged (kind : String) (parts : List (String × Json)) : Json :=
  .obj (("kind", .str kind) :: parts)

/-- Type arguments are left out where there are none. -/
def argsMember (args : List Json) : List (String × Json) :=
  if args.isEmpty then [] else [("args", .arr args)]

mutual

/-- A type in JSON. -/
def toJson : HostType → Json
  | basic name => tagged "basic" [("name", .str name)]
  | error => tagged "error" []
  | named package name args =>
    tagged "named"
      (("package", .str package) :: ("name", .str name) :: argsMember (listToJson args))
  | typeParam name => tagged "typeParam" [("name", .str name)]
  | pointer elem => tagged "pointer" [("elem", toJson elem)]
  | slice elem => tagged "slice" [("elem", toJson elem)]
  | array len elem => tagged "array" [("len", .str len), ("elem", toJson elem)]
  | map key value => tagged "map" [("key", toJson key), ("value", toJson value)]
  | chan elem => tagged "chan" [("elem", toJson elem)]
  | func params results variadic =>
    tagged "func" [("params", .arr (listToJson params)), ("results", .arr (listToJson results)),
      ("variadic", .bool variadic)]
  | struct fields => tagged "struct" [("fields", .arr (fieldsToJson fields))]
  | interface empty => tagged "interface" [("empty", .bool empty)]
  | invalid => tagged "invalid" []

/-- Types in JSON. -/
def listToJson : List HostType → List Json
  | [] => []
  | t :: ts => toJson t :: listToJson ts

/-- Fields of a struct type in JSON. -/
def fieldsToJson : List (StructFieldOf HostType) → List Json
  | [] => []
  | ⟨name, embedded, type, tag, l⟩ :: fields =>
    structFieldJson name embedded (toJson type) tag l :: fieldsToJson fields

end

/-! ### Reading types -/

/-- The kinds of types, in the order of their positions. -/
def kinds : List String :=
  ["basic", "error", "named", "typeParam", "pointer", "slice", "array", "map", "chan", "func",
   "struct", "interface", "invalid"]

/-- Reads a kind. Its position may stand for it where `byPosition` holds. -/
def kind? (byPosition : Bool) : Json → Option String
  | .str kind => some kind
  | .natural i => if byPosition then kinds[i]? else none
  | _ => none

/-- The kind of a type in JSON and the record of its parts. -/
def untag? (byPosition : Bool) : Json → Option (String × Json)
  | .arr (tag :: parts) => (kind? byPosition tag).map (·, .arr parts)
  | .obj members =>
    match members.filter fun member => member.1 == "kind" with
    | [(_, tag)] => (kind? byPosition tag).map (·, .obj members)
    | _ => none
  | _ => none

/-- Reads a type that nests at most `levels` types. -/
def ofJsonWithin? : (levels : Nat) → (byPosition : Bool) → Json → Option HostType
  | 0, _, _ => none
  | levels + 1, byPosition, value => do
    let (kind, parts) ← untag? byPosition value
    let type := ofJsonWithin? levels true
    let types := Json.list type
    match kind with
    | "basic" =>
      let r ← Json.record? ["name"] 1 parts
      return basic (← r.required "name" Json.string)
    | "error" =>
      let _ ← Json.record? [] 0 parts
      return error
    | "named" =>
      let r ← Json.record? ["package", "name", "args"] 2 parts
      let package ← r.required "package" Json.string
      let name ← r.required "name" Json.string
      return named package name (← r.withDefault "args" [] types)
    | "typeParam" =>
      let r ← Json.record? ["name"] 1 parts
      return typeParam (← r.required "name" Json.string)
    | "pointer" =>
      let r ← Json.record? ["elem"] 1 parts
      return pointer (← r.required "elem" type)
    | "slice" =>
      let r ← Json.record? ["elem"] 1 parts
      return slice (← r.required "elem" type)
    | "array" =>
      let r ← Json.record? ["len", "elem"] 2 parts
      let len ← r.required "len" Json.string
      return array len (← r.required "elem" type)
    | "map" =>
      let r ← Json.record? ["key", "value"] 2 parts
      let key ← r.required "key" type
      return map key (← r.required "value" type)
    | "chan" =>
      let r ← Json.record? ["elem"] 1 parts
      return chan (← r.required "elem" type)
    | "func" =>
      let r ← Json.record? ["params", "results", "variadic"] 3 parts
      let params ← r.required "params" types
      let results ← r.required "results" types
      return func params results (← r.required "variadic" Json.boolean)
    | "struct" =>
      let r ← Json.record? ["fields"] 1 parts
      return struct (← r.required "fields" (Json.list (structFieldOfJson? type)))
    | "interface" =>
      let r ← Json.record? ["empty"] 1 parts
      return interface (← r.required "empty" Json.boolean)
    | "invalid" =>
      let _ ← Json.record? [] 0 parts
      return invalid
    | _ => none

/-- Reads a type, every part of which has to be readable. -/
def ofJson? (value : Json) : Option HostType :=
  if value.readable then ofJsonWithin? (value.height + 1) false value else none

/-- Reads a type from a JSON text. -/
def ofText? (text : String) : Option HostType := (Json.parseCropped? text).bind ofJson?

end HostType

end GoPages
