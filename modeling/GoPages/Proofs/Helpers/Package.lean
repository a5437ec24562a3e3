import GoPages.Proofs.Files.Package
import GoPages.Setting

/-!
# Packages without their functions

`Package.withoutFuncs` is a package without its functions and without its digest. What types mean
depends on this alone: the declared types are the same, but for their files, and so are the scopes
and whatever names lead to. Two packages that differ in their functions only are the same package
without them.
-/

namespace GoPages

/-- The file without its functions. -/
def SourceFile.withoutFuncs (file : SourceFile) : SourceFile := { file with funcs := [] }

/-- The declaration, with its file without functions. -/
def TypeDecl.withoutFuncs (d : TypeDecl) : TypeDecl := ⟨d.file.withoutFuncs, d.spec⟩

/-- The function, with its file without functions. -/
def MethodDecl.withoutFuncs (m : MethodDecl) : MethodDecl := ⟨m.file.withoutFuncs, m.decl⟩

namespace Package

/-- The package without its functions and without its digest. -/
def withoutFuncs (p : Package) : Package := ⟨p.name, p.files.map SourceFile.withoutFuncs, ""⟩

variable (p : Package)

/-! ### Declarations -/

/-- The declared types are the same, but for their files. -/
theorem typeDecls_withoutFuncs :
    p.withoutFuncs.typeDecls = p.typeDecls.map TypeDecl.withoutFuncs := by
  simp only [typeDecls, withoutFuncs, List.flatMap_map, List.map_flatMap, List.map_map]
  rfl

private theorem findDecl?_withoutFuncs (name : String) (decls : List TypeDecl) :
    findDecl? name (decls.map TypeDecl.withoutFuncs) =
      (findDecl? name decls).map TypeDecl.withoutFuncs := List.find?_map

private theorem without_withoutFuncs (name : String) (decls : List TypeDecl) :
    without name (decls.map TypeDecl.withoutFuncs) =
      (without name decls).map TypeDecl.withoutFuncs := List.filter_map

/-- The first declaration of a name is the same, but for its file. -/
theorem typeDecl?_withoutFuncs (name : String) :
    p.withoutFuncs.typeDecl? name = (p.typeDecl? name).map TypeDecl.withoutFuncs := by
  rw [typeDecl?, typeDecl?, typeDecls_withoutFuncs, findDecl?_withoutFuncs]

/-- The same names are declared. -/
theorem isSome_typeDecl?_withoutFuncs (name : String) :
    (p.withoutFuncs.typeDecl? name).isSome = (p.typeDecl? name).isSome := by
  rw [typeDecl?_withoutFuncs, Option.isSome_map]

private theorem typeNames_withoutFuncs : p.withoutFuncs.typeNames = p.typeNames := by
  rw [typeNames, typeNames, typeDecls_withoutFuncs, List.map_map]
  rfl

/-- The declared types stand in the order of their names, but for their files they are the same. -/
theorem types_withoutFuncs : p.withoutFuncs.types = p.types.map TypeDecl.withoutFuncs := by
  rw [types, types, typeNames_withoutFuncs, List.map_filterMap]
  exact congrArg (List.filterMap · p.typeNames) (funext p.typeDecl?_withoutFuncs)

theorem location_withoutFuncs : p.withoutFuncs.location = p.location := by
  have hfiles : p.withoutFuncs.files = p.files.map SourceFile.withoutFuncs := rfl
  rw [location, location, hfiles]
  cases p.files <;> rfl

/-! ### Scopes -/

/-- A file without its functions declares and imports the same. -/
theorem scope_withoutFuncs (file : SourceFile) :
    p.withoutFuncs.scope file.withoutFuncs = p.scope file := by
  have hnames : p.withoutFuncs.typeDecls.map TypeDecl.name = p.typeDecls.map TypeDecl.name := by
    rw [typeDecls_withoutFuncs, List.map_map]
    rfl
  rw [scope, scope, hnames]
  rfl

theorem declScope_withoutFuncs (d : TypeDecl) :
    p.withoutFuncs.declScope d.withoutFuncs = p.declScope d := by
  have hfile : d.withoutFuncs.file = d.file.withoutFuncs := rfl
  rw [declScope, declScope, hfile, scope_withoutFuncs]
  rfl

theorem methodScope_withoutFuncs (m : MethodDecl) :
    p.withoutFuncs.methodScope m.withoutFuncs = p.methodScope m := by
  have hfile : m.withoutFuncs.file = m.file.withoutFuncs := rfl
  rw [methodScope, methodScope, hfile, scope_withoutFuncs]
  rfl

/-! ### Following declarations -/

private theorem underlyingFrom_withoutFuncs (decls : List TypeDecl) (type : HostType) :
    p.withoutFuncs.underlyingFrom (decls.map TypeDecl.withoutFuncs) type =
      p.underlyingFrom decls type := by
  fun_induction underlyingFrom p decls type with
  | case1 decls type hname => rw [underlyingFrom_eq, hname]
  | case2 decls type name hname hnone =>
    rw [underlyingFrom_eq, hname]
    simp only [findDecl?_withoutFuncs, hnone, Option.map_none]
  | case3 decls type name hname d hsome _ ih =>
    rw [underlyingFrom_eq, hname]
    simp only [findDecl?_withoutFuncs, hsome, Option.map_some, declScope_withoutFuncs,
      without_withoutFuncs]
    exact ih

private theorem unaliasFrom_withoutFuncs (decls : List TypeDecl) (type : HostType) :
    p.withoutFuncs.unaliasFrom (decls.map TypeDecl.withoutFuncs) type =
      p.unaliasFrom decls type := by
  fun_induction unaliasFrom p decls type with
  | case1 decls type hname => rw [unaliasFrom_eq, hname]
  | case2 decls type name hname hnone =>
    rw [unaliasFrom_eq, hname]
    simp only [findDecl?_withoutFuncs, hnone, Option.map_none]
  | case3 decls type name hname d hsome _ halias ih =>
    have halias' : d.withoutFuncs.spec.isAlias = true := halias
    have hscope : p.withoutFuncs.scope d.withoutFuncs.file = p.scope d.file :=
      p.scope_withoutFuncs d.file
    rw [unaliasFrom_eq, hname]
    simp only [findDecl?_withoutFuncs, hsome, Option.map_some, halias', if_true, hscope,
      without_withoutFuncs]
    exact ih
  | case4 decls type name hname d hsome _ halias =>
    have halias' : ¬ d.withoutFuncs.spec.isAlias = true := halias
    rw [unaliasFrom_eq, hname]
    simp only [findDecl?_withoutFuncs, hsome, Option.map_some, halias', Bool.false_eq_true,
      if_false]

/-- What a type stands for does not depend on functions. -/
theorem underlying_withoutFuncs : p.withoutFuncs.underlying = p.underlying := by
  funext type
  rw [underlying, underlying, typeDecls_withoutFuncs, underlyingFrom_withoutFuncs]

/-- Nor does what aliases end in. -/
theorem unalias_withoutFuncs : p.withoutFuncs.unalias = p.unalias := by
  funext type
  rw [unalias, unalias, typeDecls_withoutFuncs, unaliasFrom_withoutFuncs]

theorem isBasicUnderlying_withoutFuncs :
    p.withoutFuncs.isBasicUnderlying = p.isBasicUnderlying := by
  funext expected type
  rw [isBasicUnderlying, isBasicUnderlying, underlying_withoutFuncs]

end Package

namespace Setting

/-- The setting without the functions of the package. -/
def withoutFuncs (s : Setting) : Setting := ⟨s.package.withoutFuncs, s.conventions⟩

variable (s : Setting)

@[simp] theorem package_withoutFuncs : s.withoutFuncs.package = s.package.withoutFuncs := rfl

@[simp] theorem conventions_withoutFuncs : s.withoutFuncs.conventions = s.conventions := rfl

/-- Nor does which types are events. -/
theorem isEventType_withoutFuncs : s.withoutFuncs.isEventType = s.isEventType := by
  funext name
  rw [isEventType, isEventType, package_withoutFuncs, Package.isSome_typeDecl?_withoutFuncs]
  rfl

theorem eventTypes_withoutFuncs :
    s.withoutFuncs.eventTypes = s.eventTypes.map TypeDecl.withoutFuncs := by
  rw [eventTypes, eventTypes, package_withoutFuncs, Package.types_withoutFuncs, List.filter_map]
  rfl

theorem eventOf?_withoutFuncs : s.withoutFuncs.eventOf? = s.eventOf? := by
  funext type
  rw [eventOf?, eventOf?, package_withoutFuncs, Package.unalias_withoutFuncs,
    isEventType_withoutFuncs]

theorem isSession_withoutFuncs : s.withoutFuncs.isSession = s.isSession := by
  funext type
  rw [isSession, isSession, package_withoutFuncs, Package.unalias_withoutFuncs]
  rfl

end Setting

end GoPages
