import GoPages.HostType
import GoPages.SourceFile
import GoPages.Text.Pieces

/-!
# Scopes

A `Scope` is what names mean in a file: the type parameters in effect, the types that the package
declares, the predeclared types, and the imports.

* `Scope.resolve` is the type that a type expression denotes in a scope, and `Scope.problems` are
  the names in it that have no meaning there, in the order in which they are looked up.
* `defaultImportName` is the name of an import without an alias: the last step of its path that is
  not a major version, without the marks of a Go package.
-/

namespace GoPages

/-! ### Import names -/

/-- Is the text a major version, `v` and digits? -/
def isMajorVersion : List Char → Bool
  | 'v' :: d :: ds => (d :: ds).all Char.isDigit
  | _ => false

/-- The last step of a path that is no major version, unless there is only one. -/
def lastName (steps : List (List Char)) : Option (List Char) :=
  match steps.reverse with
  | last :: other :: _ => if isMajorVersion last then some other else some last
  | [last] => some last
  | [] => none

/-- The text before its last point, if a major version follows the point. -/
def dropVersion (name : List Char) : List Char :=
  let suffix := (name.reverse.takeWhile (· != '.')).reverse
  if name.contains '.' && isMajorVersion suffix then name.take (name.length - suffix.length - 1)
  else name

/-- The name by which a file refers to an import without an alias. -/
def defaultImportName (path : String) : String :=
  let cs := path.toList
  let steps := (Text.pieces '/' cs).filter fun step => !step.isEmpty
  let name := dropVersion ((lastName steps).getD cs)
  let name := (Text.strip? "go-".toList name).getD name
  let name := (Text.stripEnd? "-go".toList name).getD name
  String.ofList (name.map fun c => if c = '-' then '_' else c)

/-! ### Problems -/

/-- What can be wrong with the types of a package. -/
inductive TypeFault where
  | undefined (name : String)
  | typeRedeclared (name : String) (previous : Location)
  | methodRedeclared (receiver method : String) (previous : Location)
  | receiverNotLocal (type : String)
deriving DecidableEq

/-- The wording of a fault. -/
def TypeFault.message : TypeFault → String
  | undefined name => "undefined: " ++ name
  | typeRedeclared name previous =>
    name ++ " redeclared in this block (previous at " ++ previous.normalized.text ++ ")"
  | methodRedeclared receiver method previous =>
    "method " ++ receiver ++ "." ++ method ++ " already declared at " ++ previous.normalized.text
  | receiverNotLocal type => "cannot define new methods on non-local type " ++ type

/-- A fault with its location. -/
structure TypeProblem where
  location : Location
  fault : TypeFault
deriving DecidableEq

/-! ### Scopes -/

/-- What names mean in a file. -/
structure Scope where
  typeParams : List String
  localTypes : List String
  /-- Names with the import paths that they stand for; the first entry of a name counts. -/
  imports : List (String × String)
  /-- The import whose names can be used without a package name. -/
  dotImport : Option String

/-- The predeclared types with a name of their own. -/
def basicTypes : List String :=
  ["bool", "string", "int", "int8", "int16", "int32", "int64", "uint", "uint8", "uint16", "uint32",
   "uint64", "uintptr", "float32", "float64", "complex64", "complex128"]

/-- The predeclared type of a name. -/
def predeclared? (name : String) : Option HostType :=
  match name with
  | "error" => some .error
  | "byte" => some (.basic "uint8")
  | "rune" => some (.basic "int32")
  | "any" => some (.interface true)
  | "comparable" => some (.interface false)
  | _ => if basicTypes.contains name then some (.basic name) else none

/-- The name that an import gives its package in the file, if it gives one. -/
def Import.packageName? (i : Import) : Option String :=
  match i.rename with
  | some "_" => none
  | some "." => none
  | some name => some name
  | none => some (defaultImportName i.path)

namespace Scope

/-- The scope of a file with these imports, in a package that declares these types. A later import
of a name counts. -/
def ofImports (localTypes : List String) (imports : List Import) : Scope where
  typeParams := []
  localTypes := localTypes
  imports := (imports.filterMap fun i => i.packageName?.map (·, i.path)).reverse
  dotImport := ((imports.filter fun i => i.rename == some ".").getLast?).map Import.path

/-- The scope with further type parameters. -/
def withTypeParams (s : Scope) (names : List String) : Scope :=
  { s with typeParams := names ++ s.typeParams }

/-- The import path that a package name stands for. -/
def importPath? (s : Scope) (package : String) : Option String := s.imports.lookup package

/-- The type that a name without a package denotes. -/
def typeOfName? (s : Scope) (name : String) : Option HostType :=
  if s.typeParams.contains name then some (.typeParam name)
  else if s.localTypes.contains name then some (.named "" name [])
  else match predeclared? name with
    | some type => some type
    | none => s.dotImport.map fun path => .named path name []

/-- A named type with type arguments. No other type can have them. -/
def instantiate (args : List HostType) : HostType → HostType
  | .named package name _ => .named package name args
  | type => type

/-- The type of a variadic parameter is written with three points. -/
def isVariadic (params : List Param) : Bool :=
  match params.getLast? with
  | some ⟨_, .ellipsis _ _⟩ => true
  | _ => false

/-- The fields that a field declaration of a resolved type declares. -/
def fieldsOf (names : List Ident) (expr : TypeExpr) (tag : Option String) (type : HostType) :
    List StructField :=
  let tag := tag.getD ""
  if names.isEmpty then
    match expr.embeddedName with
    | some id => [⟨id.name, true, type, tag, id.location⟩]
    | none => [⟨"", true, type, tag, expr.location⟩]
  else names.map fun id => ⟨id.name, false, type, tag, id.location⟩

mutual

/-- The type that a type expression denotes. -/
def resolve (s : Scope) : TypeExpr → HostType
  | .ident id => (s.typeOfName? id.name).getD .invalid
  | .qualified package id =>
    match s.importPath? package.name with
    | some path => .named path id.name []
    | none => .invalid
  | .generic base args => instantiate (resolveList s args) (resolve s base)
  | .pointer _ elem => .pointer (resolve s elem)
  | .slice _ elem => .slice (resolve s elem)
  | .ellipsis _ elem => .slice (resolve s elem)
  | .array _ len elem => .array len (resolve s elem)
  | .map _ key value => .map (resolve s key) (resolve s value)
  | .chan _ _ elem => .chan (resolve s elem)
  | .func ⟨params, results, _⟩ =>
    .func (resolveParams s params) (resolveParams s results) (isVariadic params)
  | .struct _ fields => .struct (resolveFields s fields)
  | .interface _ empty => .interface empty

/-- The types that type arguments denote. -/
def resolveList (s : Scope) : List TypeExpr → List HostType
  | [] => []
  | t :: ts => resolve s t :: resolveList s ts

/-- The types of parameters or results. -/
def resolveParams (s : Scope) : List (ParamOf TypeExpr) → List HostType
  | [] => []
  | ⟨_, type⟩ :: params => resolve s type :: resolveParams s params

/-- The fields that field declarations declare. -/
def resolveFields (s : Scope) : List (FieldOf TypeExpr) → List (StructFieldOf HostType)
  | [] => []
  | ⟨names, type, tag⟩ :: fields =>
    fieldsOf names type tag (resolve s type) ++ resolveFields s fields

end

/-- A name that has no meaning. -/
def undefinedName (id : Ident) : TypeProblem := ⟨id.location, .undefined id.name⟩

mutual

/-- The names in a type expression that have no meaning, those in type arguments before the generic
type. -/
def problems (s : Scope) : TypeExpr → List TypeProblem
  | .ident id => if (s.typeOfName? id.name).isSome then [] else [undefinedName id]
  | .qualified package _ =>
    if (s.importPath? package.name).isSome then [] else [undefinedName package]
  | .generic base args => problemsList s args ++ problems s base
  | .pointer _ elem => problems s elem
  | .slice _ elem => problems s elem
  | .ellipsis _ elem => problems s elem
  | .array _ _ elem => problems s elem
  | .map _ key value => problems s key ++ problems s value
  | .chan _ _ elem => problems s elem
  | .func ⟨params, results, _⟩ => problemsParams s params ++ problemsParams s results
  | .struct _ fields => problemsFields s fields
  | .interface _ _ => []

/-- The names without a meaning in type arguments. -/
def problemsList (s : Scope) : List TypeExpr → List TypeProblem
  | [] => []
  | t :: ts => problems s t ++ problemsList s ts

/-- The names without a meaning in parameters or results. -/
def problemsParams (s : Scope) : List (ParamOf TypeExpr) → List TypeProblem
  | [] => []
  | ⟨_, type⟩ :: params => problems s type ++ problemsParams s params

/-- The names without a meaning in field declarations. -/
def problemsFields (s : Scope) : List (FieldOf TypeExpr) → List TypeProblem
  | [] => []
  | ⟨_, type, _⟩ :: fields => problems s type ++ problemsFields s fields

end

end Scope

end GoPages
