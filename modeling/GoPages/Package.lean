import GoPages.Digest.Sha256
import GoPages.HostType.Render
import GoPages.Parser.SourceFile
import GoPages.Scope
import GoPages.Sorting

/-!
# Packages

A `Package` is the unit of analysis: files of one Go package in the order of their names, with the
SHA-256 digest of their names and contents.

* `Package.load` reads a package from file names and source texts. Of several faults the first
  syntax error in the order of the names counts; only files without syntax errors can disagree about
  the package name.
* `Package.typeDecl?` is the first declaration of a type name, in the order of the files and then of
  the text.
* `Package.underlying` follows the declarations of named types, `Package.unalias` those of aliases
  only. Both take every declaration at most once, so that a cycle ends: in no type for `underlying`,
  and in the alias where it closes for `unalias`.
-/

namespace GoPages

/-- A source file before it is read. -/
structure Source where
  name : String
  text : String
deriving DecidableEq, Inhabited

/-- The ways in which a package can fail to load. -/
inductive LoadError where
  | unreadable (path reason : String)
  | noGoFiles (directory : String)
  | multiplePackages (first second : String) (location : Location)
  | malformed (e : SyntaxError)
deriving DecidableEq

/-- The wording of an error. -/
def LoadError.message : LoadError → String
  | unreadable path reason => "reading " ++ path ++ ": " ++ reason
  | noGoFiles directory => "no Go files in " ++ directory
  | multiplePackages first second _ => "found packages " ++ first ++ " and " ++ second
  | malformed e => e.message

/-- The place of an error in a source file, if it has one. -/
def LoadError.location? : LoadError → Option Location
  | multiplePackages _ _ l => some l
  | malformed e => some e.location
  | _ => none

/-- The files of a Go package. -/
structure Package where
  name : String
  files : List SourceFile
  digest : String

/-- The declaration of a type, with its file. -/
structure TypeDecl where
  file : SourceFile
  spec : TypeSpec

/-- The declaration of a function or method, with its file. -/
structure MethodDecl where
  file : SourceFile
  decl : FuncDecl

/-- The name of a declared type. -/
def TypeDecl.name (d : TypeDecl) : String := d.spec.name.name

namespace Package

/-! ### Loading -/

/-- The sources in the order of their names. Sources of one name keep their order. -/
def inNameOrder (sources : List Source) : List Source :=
  sortBy (fun a b => !decide (b.name < a.name)) sources

/-- What the digest of sources is taken of: every name and every text with a zero byte after it. -/
def digestInput (sources : List Source) : List UInt8 :=
  sources.flatMap fun source =>
    source.name.toUTF8.toList ++ 0 :: (source.text.toUTF8.toList ++ [0])

/-- Reads the files of sources, up to the first syntax error. -/
def parseAll : List Source → Except LoadError (List SourceFile)
  | [] => .ok []
  | source :: rest =>
    match SourceFile.parse source.name source.text with
    | .error e => .error (.malformed e)
    | .ok file =>
      match parseAll rest with
      | .error e => .error e
      | .ok files => .ok (file :: files)

/-- The package of files, which have to agree about its name. -/
def ofFiles (digest : String) : List SourceFile → Except LoadError Package
  | [] => .error (.noGoFiles ".")
  | first :: rest =>
    match rest.find? fun file => file.package.name != first.package.name with
    | some other =>
      .error (.multiplePackages first.package.name other.package.name other.package.location)
    | none => .ok ⟨first.package.name, first :: rest, digest⟩

/-- Reads a package from its sources. -/
def load (sources : List Source) : Except LoadError Package :=
  let sorted := inNameOrder sources
  match parseAll sorted with
  | .error e => .error e
  | .ok files => ofFiles (Digest.hex (Digest.sha256 (digestInput sorted))) files

/-! ### Declarations -/

/-- The place of the package name in the first file. -/
def location (p : Package) : Location :=
  match p.files with
  | [] => .unknown
  | file :: _ => file.package.location

/-- All declarations of types, in the order of the files and then of the text. -/
def typeDecls (p : Package) : List TypeDecl :=
  p.files.flatMap fun file => file.types.map fun spec => ⟨file, spec⟩

/-- All declarations of functions and methods, in the order of the files and then of the text. -/
def methodDecls (p : Package) : List MethodDecl :=
  p.files.flatMap fun file => file.funcs.map fun decl => ⟨file, decl⟩

/-- The first declaration of a name among declarations. -/
def findDecl? (name : String) (decls : List TypeDecl) : Option TypeDecl :=
  decls.find? fun d => d.name == name

/-- The first declaration of a type name. -/
def typeDecl? (p : Package) (name : String) : Option TypeDecl := findDecl? name p.typeDecls

/-- The scope of a file of the package. -/
def scope (p : Package) (file : SourceFile) : Scope :=
  Scope.ofImports (p.typeDecls.map TypeDecl.name) file.imports

/-- The scope of the type that a declaration declares: its type parameters are in effect. -/
def declScope (p : Package) (d : TypeDecl) : Scope :=
  (p.scope d.file).withTypeParams d.spec.typeParams

/-- The name that a type expression consists of. -/
def plainName? : TypeExpr → Option String
  | .ident id => some id.name
  | _ => none

/-- The names that stand alone as type arguments of a receiver's type. -/
def receiverParams : TypeExpr → List String
  | .pointer _ (.generic _ args) => args.filterMap plainName?
  | .generic _ args => args.filterMap plainName?
  | _ => []

/-- The scope of a signature: the type parameters of the function and of its receiver are in
effect. -/
def methodScope (p : Package) (m : MethodDecl) : Scope :=
  (p.scope m.file).withTypeParams (m.decl.typeParams ++
    match m.decl.receiver with
    | some receiver => receiverParams receiver.type
    | none => [])

/-! ### Following declarations -/

/-- The declarations of other names. -/
def without (name : String) (decls : List TypeDecl) : List TypeDecl :=
  decls.filter fun d => d.name != name

/-- A declared name that is met leaves fewer to meet. -/
theorem length_without_lt {name : String} {decls : List TypeDecl} {d : TypeDecl}
    (h : findDecl? name decls = some d) : (without name decls).length < decls.length := by
  have hmem := List.mem_of_find?_eq_some h
  have hname := List.find?_some h
  refine List.length_filter_lt_length_iff_exists.2 ⟨d, hmem, ?_⟩
  simpa using hname

/-- The underlying type of a type, where only the given declarations may still be followed. -/
def underlyingFrom (p : Package) (decls : List TypeDecl) (type : HostType) : HostType :=
  match type.localName with
  | none => type
  | some name =>
    match h : findDecl? name decls with
    | none => .invalid
    | some d =>
      have := length_without_lt h
      underlyingFrom p (without name decls) ((p.declScope d).resolve d.spec.type)
termination_by decls.length

/-- The type without a name that a type stands for. -/
def underlying (p : Package) (type : HostType) : HostType := p.underlyingFrom p.typeDecls type

/-- Is the type, or the type without a name that it stands for, the basic type `expected`? -/
def isBasicUnderlying (p : Package) (expected : String) (type : HostType) : Bool :=
  type.isBasic expected || (p.underlying type).isBasic expected

/-- The type without aliases, where only the given declarations may still be followed. -/
def unaliasFrom (p : Package) (decls : List TypeDecl) (type : HostType) : HostType :=
  match type.localName with
  | none => type
  | some name =>
    match h : findDecl? name decls with
    | none => type
    | some d =>
      have := length_without_lt h
      if d.spec.isAlias then
        unaliasFrom p (without name decls) ((p.scope d.file).resolve d.spec.type)
      else type
termination_by decls.length

/-- The type that a chain of aliases ends in. -/
def unalias (p : Package) (type : HostType) : HostType := p.unaliasFrom p.typeDecls type

end Package

end GoPages
