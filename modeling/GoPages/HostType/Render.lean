import GoPages.HostType
import GoPages.Text.Quoted
import GoPages.TypeExpr.Render

/-!
# The text of a resolved type

`HostType.render` writes a resolved type on one line. A named type stands with its whole import
path, a tag is quoted, and the direction of a channel and the content of an interface are left out.
-/

namespace GoPages

/-- A named type as it is written, given the texts of its type arguments. -/
def renderNamed (package name : String) (args : List String) : String :=
  (if package = "" then name else package ++ "." ++ name) ++
    if args.isEmpty then "" else "[" ++ commaList args ++ "]"

/-- A field as it is written, given the text of its type. -/
def renderStructField (name : String) (embedded : Bool) (type tag : String) : String :=
  (if embedded then type else name ++ " " ++ type) ++
    if tag = "" then "" else " " ++ Text.quote tag

/-- Results as they are written after parameters, given their texts. -/
def renderResults : List String → String
  | [] => ""
  | [result] => " " ++ result
  | results => " (" ++ commaList results ++ ")"

namespace HostType

/-- Is the type a slice? -/
def isSlice : HostType → Bool
  | slice _ => true
  | _ => false

/-- The last parameter of a variadic function, given the text of its type: three points in place of
the brackets of a slice. -/
def variadicText (param : HostType) (text : String) : String :=
  if param.isSlice then "..." ++ String.ofList (text.toList.drop 2) else "..." ++ text

mutual

/-- A resolved type on one line. -/
def render : HostType → String
  | basic name => name
  | error => "error"
  | named package name args => renderNamed package name (renderList args)
  | typeParam name => name
  | pointer elem => "*" ++ render elem
  | slice elem => "[]" ++ render elem
  | array len elem => "[" ++ len ++ "]" ++ render elem
  | map key value => "map[" ++ render key ++ "]" ++ render value
  | chan elem => "chan " ++ render elem
  | func params results variadic =>
    "func(" ++ commaList (renderParams variadic params) ++ ")"
      ++ renderResults (renderList results)
  | struct fields => "struct\x7b" ++ String.intercalate "; " (renderFields fields) ++ "\x7d"
  | interface empty => if empty then "interface\x7b\x7d" else "interface\x7b...\x7d"
  | invalid => "invalid type"

/-- Type arguments or results. -/
def renderList : List HostType → List String
  | [] => []
  | t :: ts => render t :: renderList ts

/-- Parameters, the last of which may be variadic. -/
def renderParams (variadic : Bool) : List HostType → List String
  | [] => []
  | t :: ts =>
    (if variadic && ts.isEmpty then variadicText t (render t) else render t)
      :: renderParams variadic ts

/-- The fields of a struct type. -/
def renderFields : List (StructFieldOf HostType) → List String
  | [] => []
  | ⟨name, embedded, type, tag, _⟩ :: fields =>
    renderStructField name embedded (render type) tag :: renderFields fields

end

end HostType

end GoPages
