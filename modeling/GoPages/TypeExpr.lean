import GoPages.CommentGroup

/-!
# Type expressions

A `TypeExpr` is a Go type as it is written in a declaration, every part with its location. Function
types hold parameters and struct types hold fields, which hold type expressions in turn: `ParamOf`,
`FieldOf` and `SignatureOf` are these records over any type of types.

* `TypeExpr.location` is the place of the first name or bracket of a type.
* `TypeExpr.embeddedName` is the name that an embedded field of the type gets.
-/

namespace GoPages

/-- A name with its location. -/
structure Ident where
  name : String
  location : Location
deriving DecidableEq, Inhabited

/-- The directions of a channel. -/
inductive ChanDir where
  | both
  | send
  | recv
deriving DecidableEq, Inhabited

/-- A parameter or result with its name, if it has one. -/
structure ParamOf (τ : Type) where
  name : Option Ident
  type : τ

/-- A field declaration: the names that it declares, none for an embedded field, their type, and the
value of the tag. -/
structure FieldOf (τ : Type) where
  names : List Ident
  type : τ
  tag : Option String

/-- The parameters and results of a function type. -/
structure SignatureOf (τ : Type) where
  params : List (ParamOf τ)
  results : List (ParamOf τ)
  location : Location

/-- A type as it is written. -/
inductive TypeExpr where
  | ident (id : Ident)
  | qualified (package name : Ident)
  | generic (base : TypeExpr) (args : List TypeExpr)
  | pointer (location : Location) (elem : TypeExpr)
  | slice (location : Location) (elem : TypeExpr)
  /-- The length is the text of its tokens without blanks. -/
  | array (location : Location) (len : String) (elem : TypeExpr)
  | map (location : Location) (key value : TypeExpr)
  | chan (location : Location) (dir : ChanDir) (elem : TypeExpr)
  | func (type : SignatureOf TypeExpr)
  | struct (location : Location) (fields : List (FieldOf TypeExpr))
  | interface (location : Location) (empty : Bool)
  /-- The type of a variadic parameter. -/
  | ellipsis (location : Location) (elem : TypeExpr)

/-- A parameter or result. -/
abbrev Param := ParamOf TypeExpr

/-- A field declaration of a struct type. -/
abbrev FieldDecl := FieldOf TypeExpr

/-- A function type. -/
abbrev FuncType := SignatureOf TypeExpr

namespace TypeExpr

instance : Inhabited TypeExpr := ⟨ident default⟩

/-- The place of the first name or bracket of a type. -/
def location : TypeExpr → Location
  | ident id => id.location
  | qualified package _ => package.location
  | generic base _ => base.location
  | pointer l _ => l
  | slice l _ => l
  | array l _ _ => l
  | map l _ _ => l
  | chan l _ _ => l
  | func type => type.location
  | struct l _ => l
  | interface l _ => l
  | ellipsis l _ => l

/-- The name that an embedded field of the type gets: `T` for `T`, `*T`, `p.T` and `T[A]`. -/
def embeddedName : TypeExpr → Option Ident
  | ident id => some id
  | qualified _ id => some id
  | generic base _ => base.embeddedName
  | pointer _ elem => elem.embeddedName
  | _ => none

/-- Does the type start with a pointer? -/
def isPointer : TypeExpr → Bool
  | pointer _ _ => true
  | _ => false

end TypeExpr

/-- The name of a parameter, empty if it has none. -/
def ParamOf.nameText {τ : Type} (p : ParamOf τ) : String :=
  match p.name with
  | some id => id.name
  | none => ""

/-- The place of a parameter: its name, or else its type. -/
def ParamOf.location (p : ParamOf TypeExpr) : Location :=
  match p.name with
  | some id => id.location
  | none => p.type.location

/-- Does the field have the name of its type alone? -/
def FieldOf.isEmbedded {τ : Type} (f : FieldOf τ) : Bool := f.names.isEmpty

end GoPages
