import GoPages.Text.Quoted
import GoPages.TypeExpr

/-!
# The text of a type expression

`TypeExpr.render` writes a type expression in Go on one line. A single result without a name stands
without parentheses, tags are quoted, and what an interface holds is left out.
-/

namespace GoPages

/-- The items with `", "` between them. -/
def commaList (items : List String) : String := String.intercalate ", " items

/-- A parameter as it is written, given the text of its type. -/
def renderParam (name : Option Ident) (type : String) : String :=
  match name with
  | some id => id.name ++ " " ++ type
  | none => type

/-- A field declaration as it is written, given the text of its type. -/
def renderField (names : List Ident) (type : String) (tag : Option String) : String :=
  (if names.isEmpty then "" else commaList (names.map Ident.name) ++ " ") ++ type ++
    match tag with
    | some tag => " " ++ Text.quote tag
    | none => ""

/-- The parameters and results of a function type, given how they are written. -/
def renderSignature (params results : List String) (soleResultUnnamed : Bool) : String :=
  "(" ++ commaList params ++ ")" ++
    if results.isEmpty then ""
    else if soleResultUnnamed then " " ++ commaList results
    else " (" ++ commaList results ++ ")"

/-- Is there one result, and has it no name? -/
def soleUnnamed {τ : Type} : List (ParamOf τ) → Bool
  | [⟨none, _⟩] => true
  | _ => false

namespace TypeExpr

mutual

/-- A type expression on one line. -/
def render : TypeExpr → String
  | ident id => id.name
  | qualified package id => package.name ++ "." ++ id.name
  | generic base args => render base ++ "[" ++ commaList (renderArgs args) ++ "]"
  | pointer _ elem => "*" ++ render elem
  | slice _ elem => "[]" ++ render elem
  | array _ len elem => "[" ++ len ++ "]" ++ render elem
  | map _ key value => "map[" ++ render key ++ "]" ++ render value
  | chan _ dir elem =>
    match dir with
    | .both => "chan " ++ render elem
    | .send => "chan<- " ++ render elem
    | .recv => "<-chan " ++ render elem
  | func ⟨params, results, _⟩ =>
    "func" ++ renderSignature (renderParams params) (renderParams results) (soleUnnamed results)
  | struct _ fields =>
    "struct\x7b" ++ String.intercalate "; " (renderFields fields) ++ "\x7d"
  | interface _ empty => if empty then "interface\x7b\x7d" else "interface\x7b...\x7d"
  | ellipsis _ elem => "..." ++ render elem

/-- The type arguments of a generic type. -/
def renderArgs : List TypeExpr → List String
  | [] => []
  | arg :: args => render arg :: renderArgs args

/-- Parameters or results. -/
def renderParams : List (ParamOf TypeExpr) → List String
  | [] => []
  | ⟨name, type⟩ :: params => renderParam name (render type) :: renderParams params

/-- The field declarations of a struct type. -/
def renderFields : List (FieldOf TypeExpr) → List String
  | [] => []
  | ⟨names, type, tag⟩ :: fields => renderField names (render type) tag :: renderFields fields

end

end TypeExpr

/-- The parameters and results of a function type on one line. -/
def SignatureOf.render (type : SignatureOf TypeExpr) : String :=
  renderSignature (TypeExpr.renderParams type.params) (TypeExpr.renderParams type.results)
    (soleUnnamed type.results)

end GoPages
