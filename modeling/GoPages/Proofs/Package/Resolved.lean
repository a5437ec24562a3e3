import GoPages.Event.Payload
import GoPages.Proofs.Package.Checked

/-!
# Types of a checked package

A type expression without problems denotes a type that is resolved through and through: no part of
it is a name without a meaning (`Scope.isResolved_resolve`). A package without problems has had
every declaration checked, whatever came before it (`Package.exists_of_checkAll`), so types in it
are resolved:

* `Package.isResolved_of_mem_params`: those of parameters and results;
* `Package.isResolved_of_underlying`: the struct that a declared type stands for.
-/

namespace GoPages

/-! ### Resolved types -/

namespace HostType

attribute [local simp] parts partsList partsFields

/-- No part of the type is a name without a meaning. -/
def IsResolved (t : HostType) : Prop := .invalid ∉ t.parts

private theorem mem_partsList_iff {ts : List HostType} {t : HostType} :
    t ∈ partsList ts ↔ ∃ u ∈ ts, t ∈ u.parts := by
  induction ts with
  | nil => simp
  | cons u ts ih => simp [ih]

/-- The parts of fields are those of their types. -/
theorem mem_partsFields_iff {fields : List StructField} {t : HostType} :
    t ∈ partsFields fields ↔ ∃ f ∈ fields, t ∈ f.type.parts := by
  induction fields with
  | nil => simp
  | cons f fields ih => simp [ih]

variable {t key value : HostType}

@[simp] theorem isResolved_pointer : (pointer t).IsResolved ↔ t.IsResolved := by
  simp [IsResolved]

@[simp] theorem isResolved_slice : (slice t).IsResolved ↔ t.IsResolved := by
  simp [IsResolved]

@[simp] theorem isResolved_array {len : String} : (array len t).IsResolved ↔ t.IsResolved := by
  simp [IsResolved]

@[simp] theorem isResolved_chan : (chan t).IsResolved ↔ t.IsResolved := by
  simp [IsResolved]

@[simp] theorem isResolved_map :
    (map key value).IsResolved ↔ key.IsResolved ∧ value.IsResolved := by
  simp [IsResolved]

@[simp] theorem isResolved_named {package name : String} {args : List HostType} :
    (named package name args).IsResolved ↔ ∀ u ∈ args, u.IsResolved := by
  simp [IsResolved, mem_partsList_iff]

@[simp] theorem isResolved_func {params results : List HostType} {variadic : Bool} :
    (func params results variadic).IsResolved ↔
      (∀ u ∈ params, u.IsResolved) ∧ ∀ u ∈ results, u.IsResolved := by
  simp [IsResolved, mem_partsList_iff]

@[simp] theorem isResolved_struct {fields : List StructField} :
    (struct fields).IsResolved ↔ ∀ f ∈ fields, f.type.IsResolved := by
  simp [IsResolved, mem_partsFields_iff]

end HostType

namespace Scope

/-! ### Parts of type expressions -/

/-- Type expressions are resolved one by one. -/
theorem resolveList_eq (s : Scope) (es : List TypeExpr) : s.resolveList es = es.map s.resolve := by
  induction es with
  | nil => rfl
  | cons e es ih => rw [resolveList, ih, List.map_cons]

/-- So are the types of parameters. -/
theorem resolveParams_eq (s : Scope) (params : List Param) :
    s.resolveParams params = params.map fun param => s.resolve param.type := by
  induction params with
  | nil => rfl
  | cons param params ih => rw [resolveParams, ih, List.map_cons]

/-- A declaration of fields gives a field for each of its names. -/
theorem resolveFields_eq (s : Scope) (fields : List FieldDecl) :
    s.resolveFields fields =
      fields.flatMap fun f => fieldsOf f.names f.type f.tag (s.resolve f.type) := by
  induction fields with
  | nil => rfl
  | cons f fields ih => rw [resolveFields, ih, List.flatMap_cons]

/-- The problems of type expressions come one after the other. -/
theorem problemsList_eq (s : Scope) (es : List TypeExpr) :
    s.problemsList es = es.flatMap s.problems := by
  induction es with
  | nil => rfl
  | cons e es ih => rw [problemsList, ih, List.flatMap_cons]

/-- So do those of parameters. -/
theorem problemsParams_eq (s : Scope) (params : List Param) :
    s.problemsParams params = params.flatMap fun param => s.problems param.type := by
  induction params with
  | nil => rfl
  | cons param params ih => rw [problemsParams, ih, List.flatMap_cons]

/-- And those of fields. -/
theorem problemsFields_eq (s : Scope) (fields : List FieldDecl) :
    s.problemsFields fields = fields.flatMap fun f => s.problems f.type := by
  induction fields with
  | nil => rfl
  | cons f fields ih => rw [problemsFields, ih, List.flatMap_cons]

/-! ### Type expressions -/

/-- A name that has a meaning denotes a resolved type. -/
private theorem isResolved_typeOfName? {s : Scope} {name : String} {type : HostType}
    (h : s.typeOfName? name = some type) : type.IsResolved := by
  rcases typeOfName?_cases h with rfl | rfl | ⟨n, rfl⟩ | ⟨empty, rfl⟩ | ⟨package, rfl⟩ <;>
    simp [HostType.IsResolved, HostType.parts, HostType.partsList]

/-- Resolved type arguments make a resolved type. -/
private theorem isResolved_instantiate {args : List HostType} {t : HostType}
    (hargs : ∀ u ∈ args, u.IsResolved) (ht : t.IsResolved) : (instantiate args t).IsResolved := by
  cases t with
  | named package name _ => exact HostType.isResolved_named.mpr hargs
  | _ => exact ht

/-- A name without problems has a meaning. -/
theorem exists_of_problems_ident {s : Scope} {id : Ident} (h : s.problems (.ident id) = []) :
    ∃ type, s.typeOfName? id.name = some type ∧ s.resolve (.ident id) = type := by
  cases htype : s.typeOfName? id.name with
  | none => simp [problems, htype] at h
  | some type => exact ⟨type, rfl, by rw [resolve, htype, Option.getD_some]⟩

/-- The package of a name without problems is imported. -/
theorem exists_of_problems_qualified {s : Scope} {package id : Ident}
    (h : s.problems (.qualified package id) = []) : ∃ path, s.importPath? package.name = some path ∧
      s.resolve (.qualified package id) = .named path id.name [] := by
  cases hpath : s.importPath? package.name with
  | none => simp [problems, hpath] at h
  | some path => exact ⟨path, rfl, by rw [resolve, hpath]⟩

/-- The fields of a field declaration have its type. -/
theorem type_of_mem_fieldsOf {names : List Ident} {e : TypeExpr} {tag : Option String}
    {type : HostType} {f : StructField} (h : f ∈ fieldsOf names e tag type) : f.type = type := by
  rw [fieldsOf] at h
  split at h
  · split at h <;> rw [List.mem_singleton.mp h]
  · obtain ⟨id, -, rfl⟩ := List.mem_map.mp h
    rfl

mutual

/-- **A type expression without problems is resolved.** -/
theorem isResolved_resolve (s : Scope) :
    ∀ e : TypeExpr, s.problems e = [] → (s.resolve e).IsResolved
  | .ident id, h => by
    obtain ⟨type, htype, hresolve⟩ := exists_of_problems_ident h
    exact hresolve ▸ isResolved_typeOfName? htype
  | .qualified package id, h => by
    obtain ⟨path, -, hresolve⟩ := exists_of_problems_qualified h
    simp [hresolve]
  | .generic base args, h => by
    obtain ⟨hargs, hbase⟩ := List.append_eq_nil_iff.mp h
    rw [resolve]
    exact isResolved_instantiate (isResolved_resolveList s args hargs)
      (isResolved_resolve s base hbase)
  | .pointer _ elem, h | .slice _ elem, h | .ellipsis _ elem, h | .array _ _ elem, h
  | .chan _ _ elem, h => by
    have helem := isResolved_resolve s elem h
    simpa [resolve] using helem
  | .map _ key value, h => by
    obtain ⟨hkey, hvalue⟩ := List.append_eq_nil_iff.mp h
    rw [resolve, HostType.isResolved_map]
    exact ⟨isResolved_resolve s key hkey, isResolved_resolve s value hvalue⟩
  | .func ⟨params, results, _⟩, h => by
    obtain ⟨hparams, hresults⟩ := List.append_eq_nil_iff.mp h
    rw [resolve, HostType.isResolved_func]
    exact ⟨isResolved_resolveParams s params hparams, isResolved_resolveParams s results hresults⟩
  | .struct _ fields, h => by
    rw [resolve, HostType.isResolved_struct]
    exact isResolved_resolveFields s fields h
  | .interface _ _, _ => by simp [resolve, HostType.IsResolved, HostType.parts]

private theorem isResolved_resolveList (s : Scope) :
    ∀ es : List TypeExpr, s.problemsList es = [] → ∀ t ∈ s.resolveList es, t.IsResolved
  | [], _ => fun _ ht => absurd ht List.not_mem_nil
  | e :: es, h => by
    obtain ⟨he, hes⟩ := List.append_eq_nil_iff.mp h
    rw [resolveList, List.forall_mem_cons]
    exact ⟨isResolved_resolve s e he, isResolved_resolveList s es hes⟩

private theorem isResolved_resolveParams (s : Scope) :
    ∀ params : List (ParamOf TypeExpr), s.problemsParams params = [] →
      ∀ t ∈ s.resolveParams params, t.IsResolved
  | [], _ => fun _ ht => absurd ht List.not_mem_nil
  | ⟨_, type⟩ :: params, h => by
    obtain ⟨htype, hparams⟩ := List.append_eq_nil_iff.mp h
    rw [resolveParams, List.forall_mem_cons]
    exact ⟨isResolved_resolve s type htype, isResolved_resolveParams s params hparams⟩

private theorem isResolved_resolveFields (s : Scope) :
    ∀ fields : List (FieldOf TypeExpr), s.problemsFields fields = [] →
      ∀ f ∈ s.resolveFields fields, f.type.IsResolved
  | [], _ => fun _ hf => absurd hf List.not_mem_nil
  | ⟨names, type, tag⟩ :: fields, h => by
    obtain ⟨htype, hfields⟩ := List.append_eq_nil_iff.mp h
    intro f hf
    rw [resolveFields, List.mem_append] at hf
    rcases hf with hf | hf
    · rw [type_of_mem_fieldsOf hf]
      exact isResolved_resolve s type htype
    · exact isResolved_resolveFields s fields hfields f hf

end

/-- The parameters of a signature without problems. -/
theorem problems_of_mem_params {s : Scope} {params : List Param} (h : s.problemsParams params = [])
    {decl : Param} (hdecl : decl ∈ params) : s.problems decl.type = [] := by
  rw [problemsParams_eq, List.flatMap_eq_nil_iff] at h
  exact h decl hdecl

end Scope

/-! ### Declarations -/

namespace Package

variable {p : Package}

/-- Every item has been checked, after some others. -/
theorem exists_of_checkAll {α : Type} {checkOne : Declared → α → Declared × List TypeProblem}
    {seen : Declared} {as : List α} (h : (checkAll checkOne seen as).2 = []) :
    ∀ a ∈ as, ∃ before, (checkOne before a).2 = [] := by
  induction as generalizing seen with
  | nil => exact fun a ha => absurd ha List.not_mem_nil
  | cons a as ih =>
    obtain ⟨ha, has⟩ := List.append_eq_nil_iff.mp h
    exact List.forall_mem_cons.mpr ⟨⟨seen, ha⟩, ih has⟩

/-- A type that is declared again would be a problem, so every declaration has been looked into. -/
theorem problems_of_checkType {seen : Declared} {d : TypeDecl} (h : (p.checkType seen d).2 = []) :
    (p.declScope d).problems d.spec.type = [] := by
  rw [checkType] at h
  split at h
  · simp at h
  · exact h

/-- A method that is checked without problems has none in its signature. -/
private theorem problemsParams_of_checkMethod {seen : Declared} {m : MethodDecl}
    (h : (p.checkMethod seen m).2 = []) :
    (p.methodScope m).problemsParams m.decl.type.params = [] ∧
      (p.methodScope m).problemsParams m.decl.type.results = [] := by
  obtain ⟨hparams, hresults⟩ := List.append_eq_nil_iff.mp h
  exact ⟨(List.append_eq_nil_iff.mp hparams).2, hresults⟩

section Check

variable (h : p.check = [])
include h

/-- In a package without problems no declaration of a type has any. -/
private theorem problems_of_mem_typeDecls {d : TypeDecl} (hd : d ∈ p.typeDecls) :
    (p.declScope d).problems d.spec.type = [] := by
  obtain ⟨file, hfile, hd⟩ := List.mem_flatMap.mp hd
  obtain ⟨before, hchecked⟩ := exists_of_checkAll h file hfile
  obtain ⟨htypes, -⟩ := List.append_eq_nil_iff.mp hchecked
  obtain ⟨before, hchecked⟩ := exists_of_checkAll htypes d hd
  exact problems_of_checkType hchecked

/-- The types of the parameters and results of methods are resolved. -/
theorem isResolved_of_mem_params {m : MethodDecl} (hm : m ∈ p.methodDecls) {decl : Param}
    (hdecl : decl ∈ m.decl.type.params ++ m.decl.type.results) :
    ((p.methodScope m).resolve decl.type).IsResolved := by
  obtain ⟨file, hfile, hm⟩ := List.mem_flatMap.mp hm
  obtain ⟨before, hchecked⟩ := exists_of_checkAll h file hfile
  obtain ⟨-, hmethods⟩ := List.append_eq_nil_iff.mp hchecked
  obtain ⟨before, hchecked⟩ := exists_of_checkAll hmethods m hm
  obtain ⟨hparams, hresults⟩ := problemsParams_of_checkMethod hchecked
  rcases List.mem_append.mp hdecl with hdecl | hdecl
  · exact Scope.isResolved_resolve _ _ (Scope.problems_of_mem_params hparams hdecl)
  · exact Scope.isResolved_resolve _ _ (Scope.problems_of_mem_params hresults hdecl)

/-- What a declared type stands for is resolved, unless there is no such type. -/
theorem isResolved_underlyingFrom {decls : List TypeDecl} (hdecls : ∀ d ∈ decls, d ∈ p.typeDecls)
    {type : HostType} (htype : type.IsResolved) :
    p.underlyingFrom decls type = .invalid ∨ (p.underlyingFrom decls type).IsResolved := by
  fun_induction underlyingFrom p decls type with
  | case1 decls type hname => exact .inr htype
  | case2 decls type name hname hnone => exact .inl rfl
  | case3 decls type name hname d hsome _ ih =>
    have hd : d ∈ p.typeDecls := hdecls d (List.mem_of_find?_eq_some hsome)
    have hresolved := Scope.isResolved_resolve _ _ (problems_of_mem_typeDecls h hd)
    exact ih (fun d hd => hdecls d (List.mem_of_mem_filter hd)) hresolved

/-- The fields of the struct that a declared type stands for are resolved. -/
theorem isResolved_of_underlying {name : String} {fields : List StructField}
    (hfields : p.underlying (.named "" name []) = .struct fields) :
    ∀ f ∈ fields, f.type.IsResolved := by
  have hname : (HostType.named "" name []).IsResolved := by simp
  rcases isResolved_underlyingFrom h (fun d hd => hd) hname with hinvalid | hresolved
  · rw [underlying, hinvalid] at hfields
    contradiction
  · rw [underlying] at hfields
    rw [hfields] at hresolved
    exact HostType.isResolved_struct.mp hresolved

end Check

end Package

end GoPages
