import GoPages.Location
import GoPages.Text.Uppercase

/-!
# Resolved types

A `HostType` is a type as a type expression denotes it in its file: names stand for the declared
type of a package, for a predeclared type or for a type parameter. A named type has the path of its
package as imports write it; the path is empty for the package that is analysed. What could not be
resolved is `invalid`.

* `HostType.localName` is the name of a type of the analysed package.
* `HostType.stripPointer` removes one pointer.
* `isExported` says whether a name is visible in other packages.
-/

namespace GoPages

/-- A field of a resolved struct type, with the value of its tag, empty if there is none. -/
structure StructFieldOf (τ : Type) where
  name : String
  embedded : Bool
  type : τ
  tag : String
  location : Location

/-- A resolved type. -/
inductive HostType where
  | basic (name : String)
  | error
  | named (package name : String) (args : List HostType)
  | typeParam (name : String)
  | pointer (elem : HostType)
  | slice (elem : HostType)
  | array (len : String) (elem : HostType)
  | map (key value : HostType)
  | chan (elem : HostType)
  | func (params results : List HostType) (variadic : Bool)
  | struct (fields : List (StructFieldOf HostType))
  | interface (empty : Bool)
  | invalid

/-- A field of a resolved struct type. -/
abbrev StructField := StructFieldOf HostType

/-- Is the name visible in other packages? -/
def isExported (name : String) : Bool :=
  match name.toList with
  | [] => false
  | c :: _ => Text.isUppercase c

/-- Is the field visible in other packages? -/
def StructFieldOf.isExported {τ : Type} (f : StructFieldOf τ) : Bool := GoPages.isExported f.name

namespace HostType

instance : Inhabited HostType := ⟨invalid⟩

/-- Is the type the predeclared basic type `expected`? -/
def isBasic (expected : String) : HostType → Bool
  | basic name => name == expected
  | _ => false

/-- Is the type the predeclared type `error`? -/
def isError : HostType → Bool
  | error => true
  | _ => false

/-- Could the type not be resolved? -/
def isInvalid : HostType → Bool
  | invalid => true
  | _ => false

/-- Is the type the type `expected` of a package, whatever its type arguments are? -/
def isNamed (package expected : String) : HostType → Bool
  | named p name _ => p == package && name == expected
  | _ => false

/-- The name of a type of the analysed package. -/
def localName : HostType → Option String
  | named package name _ => if package = "" then some name else none
  | _ => none

/-- The type without one pointer around it. -/
def stripPointer : HostType → HostType
  | pointer elem => elem
  | t => t

end HostType

end GoPages
