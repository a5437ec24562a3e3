import GoPages.Package
import GoPages.Sorting

/-!
# Declarations by name

The declarations of a package as an analysis goes through them.

* `Package.types` are the declared types in the order of their names. Of several declarations of a
  name the first one counts.
* `Package.receivers` are the types that have methods, in the order of their first methods, and
  `Package.methodsOf` are the methods of one of them, in the order of the files and then of the
  text.
-/

namespace GoPages

/-- The place of the name of a declared type. -/
def TypeDecl.location (d : TypeDecl) : Location := d.spec.name.location

/-- The field declarations of a struct type that is declared, and not only given another name. -/
def TypeDecl.structFields? (d : TypeDecl) : Option (List FieldDecl) :=
  match d.spec.type with
  | .struct _ fields => if d.spec.isAlias then none else some fields
  | _ => none

/-- The name of the receiver's type of a method, if the function is a method. -/
def MethodDecl.receiverName (m : MethodDecl) : Option String :=
  m.decl.receiver.bind Receiver.typeName

namespace Package

/-- The names of the declared types, each once, in alphabetical order. -/
def typeNames (p : Package) : List String :=
  sortBy (fun a b => !decide (b < a)) (p.typeDecls.map TypeDecl.name).eraseDups

/-- The declared types in the order of their names. -/
def types (p : Package) : List TypeDecl := p.typeNames.filterMap p.typeDecl?

/-- The names of the types that have methods, each once, in the order of their first methods. -/
def receivers (p : Package) : List String :=
  (p.methodDecls.filterMap MethodDecl.receiverName).eraseDups

/-- The methods of a type, in the order of the files and then of the text. -/
def methodsOf (p : Package) (receiver : String) : List MethodDecl :=
  p.methodDecls.filter fun m => m.receiverName == some receiver

end Package

end GoPages
