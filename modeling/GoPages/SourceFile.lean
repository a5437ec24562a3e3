import GoPages.TypeExpr

/-!
# Source files

A `SourceFile` is what a Go file declares, as far as pages are concerned: its package, its imports,
its types, and the signatures of its functions and methods. Bodies, variables and constants are left
out.
-/

namespace GoPages

/-- An import, with the name that the file gives it if it does not keep its own, and with the
location of that name or else of its path. -/
structure Import where
  rename : Option String
  path : String
  location : Location
deriving DecidableEq, Inhabited

/-- The declaration of a type. -/
structure TypeSpec where
  name : Ident
  typeParams : List String
  type : TypeExpr
  isAlias : Bool
  doc : Option CommentGroup
deriving Inhabited

/-- The receiver of a method. -/
structure Receiver where
  name : Option Ident
  type : TypeExpr
deriving Inhabited

/-- The name of the receiver's type, without pointer, package and type arguments. -/
def Receiver.typeName (r : Receiver) : Option String := r.type.embeddedName.map Ident.name

/-- The declaration of a function or method. -/
structure FuncDecl where
  receiver : Option Receiver
  name : Ident
  typeParams : List String
  type : FuncType
  doc : Option CommentGroup

/-- The declarations of a file. -/
structure SourceFile where
  name : String
  package : Ident
  imports : List Import
  types : List TypeSpec
  funcs : List FuncDecl
deriving Inhabited

end GoPages
