import GoPages.Package

/-!
# Checking a package

`Package.check` lists what is wrong with the types of a package: names without a meaning, types and
methods that are declared again, and methods of types that the package does not declare. The
problems stand in the order of the files, in a file first those of its types and then those of its
functions.
-/

namespace GoPages.Package

/-- The locations of the first declarations so far: of types by name, and of methods by the names of
receiver and method. -/
structure Declared where
  types : List (String × Location)
  methods : List ((String × String) × Location)

/-- The problems of a type declaration after others. A type that is declared again is not looked
into. -/
def checkType (p : Package) (seen : Declared) (d : TypeDecl) : Declared × List TypeProblem :=
  match seen.types.lookup d.name with
  | some previous => (seen, [⟨d.spec.name.location, .typeRedeclared d.name previous⟩])
  | none =>
    ({ seen with types := (d.name, d.spec.name.location) :: seen.types },
      (p.declScope d).problems d.spec.type)

/-- The problems of a receiver after other methods, those of its type first. -/
def checkReceiver (p : Package) (seen : Declared) (m : MethodDecl) (receiver : Receiver) :
    Declared × List TypeProblem :=
  let scope := p.methodScope m
  let type := scope.resolve receiver.type
  let problems := scope.problems receiver.type
  match type.stripPointer.localName with
  | some name =>
    let key := (name, m.decl.name.name)
    match seen.methods.lookup key with
    | some previous =>
      (seen, problems ++ [⟨m.decl.name.location, .methodRedeclared name m.decl.name.name previous⟩])
    | none => ({ seen with methods := (key, m.decl.name.location) :: seen.methods }, problems)
  | none =>
    if type.isInvalid then (seen, problems)
    else (seen, problems ++ [⟨receiver.type.location, .receiverNotLocal type.render⟩])

/-- The problems of a function or method after others. -/
def checkMethod (p : Package) (seen : Declared) (m : MethodDecl) : Declared × List TypeProblem :=
  let scope := p.methodScope m
  let (seen, problems) :=
    match m.decl.receiver with
    | some receiver => p.checkReceiver seen m receiver
    | none => (seen, [])
  (seen, problems ++ scope.problemsParams m.decl.type.params
    ++ scope.problemsParams m.decl.type.results)

/-- The problems of items in order, where every item sees the ones before it. -/
def checkAll {α : Type} (checkOne : Declared → α → Declared × List TypeProblem) :
    Declared → List α → Declared × List TypeProblem
  | seen, [] => (seen, [])
  | seen, a :: rest =>
    let (seen, problems) := checkOne seen a
    let (seen, others) := checkAll checkOne seen rest
    (seen, problems ++ others)

/-- The problems of a file after others. -/
def checkFile (p : Package) (seen : Declared) (file : SourceFile) : Declared × List TypeProblem :=
  let (seen, ofTypes) := checkAll p.checkType seen (file.types.map fun spec => ⟨file, spec⟩)
  let (seen, ofMethods) := checkAll p.checkMethod seen (file.funcs.map fun decl => ⟨file, decl⟩)
  (seen, ofTypes ++ ofMethods)

/-- The problems of a package. -/
def check (p : Package) : List TypeProblem := (checkAll p.checkFile ⟨[], []⟩ p.files).2

end GoPages.Package
