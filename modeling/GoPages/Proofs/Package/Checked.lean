import GoPages.Package.Check
import GoPages.Package.Declarations
import Mathlib.Data.List.Nodup

/-!
# Methods of a checked package

A package without problems declares its methods without ambiguity.

* The name of a receiver's type, as it is written, is the name of the declared type that it denotes
  (`Scope.embeddedName_of_localName_stripPointer`). A check looks at the one and the methods of a
  type are found by the other.
* `checkAll` goes through a package with the methods that have been declared so far: without a
  problem each item adds its own, which are new (`extendedBy_checkMethod`,
  `extendedBy_checkFile`).
* `nodup_methodKeys` and `nodup_name_methodsOf`: no two methods share the names of receiver and
  method.
-/

namespace GoPages

/-! ### Receivers -/

/-- A predeclared type is the error type, a basic type or an interface. -/
theorem predeclared?_cases {name : String} {type : HostType} (h : predeclared? name = some type) :
    type = .error ∨ (∃ n, type = .basic n) ∨ ∃ empty, type = .interface empty := by
  unfold predeclared? at h
  split at h
  case h_6 =>
    rw [Option.ite_none_right_eq_some] at h
    obtain ⟨-, h⟩ := h
    cases h
    exact .inr (.inl ⟨_, rfl⟩)
  all_goals
    cases h
    simp

namespace Scope

/-- What a name denotes: a type parameter, a type of a package, or a predeclared type. -/
theorem typeOfName?_eq {s : Scope} {name : String} {type : HostType}
    (h : s.typeOfName? name = some type) :
    s.typeParams.contains name ∧ type = .typeParam name ∨
      (∃ package, type = .named package name []) ∨ predeclared? name = some type := by
  rw [typeOfName?] at h
  split at h
  · next hparam => exact .inl ⟨hparam, (Option.some.inj h).symm⟩
  · refine .inr ?_
    split at h
    · exact .inl ⟨"", (Option.some.inj h).symm⟩
    · split at h
      · next t ht => exact .inr (h ▸ ht)
      · obtain ⟨path, -, rfl⟩ := Option.map_eq_some_iff.mp h
        exact .inl ⟨path, rfl⟩

/-- All that a name can denote, with the predeclared types by their kind. -/
theorem typeOfName?_cases {s : Scope} {name : String} {type : HostType}
    (h : s.typeOfName? name = some type) :
    type = .typeParam name ∨ type = .error ∨ (∃ n, type = .basic n) ∨
      (∃ empty, type = .interface empty) ∨ ∃ package, type = .named package name [] := by
  rcases typeOfName?_eq h with ⟨-, hparam⟩ | hnamed | hpredeclared
  · exact .inl hparam
  · exact .inr (.inr (.inr (.inr hnamed)))
  · rcases predeclared?_cases hpredeclared with herror | hbasic | hinterface
    · exact .inr (.inl herror)
    · exact .inr (.inr (.inl hbasic))
    · exact .inr (.inr (.inr (.inl hinterface)))

/-- A name denotes a type of the package only if it is its name. -/
theorem localName_typeOfName? {s : Scope} {name : String} {type : HostType}
    (h : s.typeOfName? name = some type) :
    type ≠ .invalid ∧ (∀ n, type.localName = some n → n = name) ∧ type.stripPointer = type := by
  rcases typeOfName?_cases h with rfl | rfl | ⟨n, rfl⟩ | ⟨empty, rfl⟩ | ⟨package, rfl⟩ <;>
    simp +contextual [HostType.localName, HostType.stripPointer]

@[simp] theorem localName_instantiate (args : List HostType) (type : HostType) :
    (instantiate args type).localName = type.localName := by
  cases type <;> rfl

@[simp] theorem localName_stripPointer_instantiate (args : List HostType) (type : HostType) :
    (instantiate args type).stripPointer.localName = type.stripPointer.localName := by
  cases type <;> rfl

/-- A type that cannot be resolved is a problem. -/
theorem problems_ne_nil_of_resolve (s : Scope) :
    ∀ e : TypeExpr, s.resolve e = .invalid → s.problems e ≠ []
  | .ident id, h => by
    cases htype : s.typeOfName? id.name with
    | none => simp [problems, htype]
    | some type =>
      rw [resolve, htype, Option.getD_some] at h
      exact absurd h (localName_typeOfName? htype).1
  | .qualified package id, h => by
    cases hpath : s.importPath? package.name <;> simp_all [resolve, problems]
  | .generic base args, h => by
    have hbase : s.resolve base = .invalid := by
      rw [resolve] at h
      revert h
      cases s.resolve base <;> simp [instantiate]
    simp [problems, problems_ne_nil_of_resolve s base hbase]

/-- A type of the package is written with its name. -/
theorem embeddedName_of_localName (s : Scope) {n : String} :
    ∀ e : TypeExpr, (s.resolve e).localName = some n → e.embeddedName.map Ident.name = some n
  | .ident id, h => by
    cases htype : s.typeOfName? id.name with
    | none => simp [resolve, htype, HostType.localName] at h
    | some type =>
      rw [resolve, htype, Option.getD_some] at h
      simp [TypeExpr.embeddedName, (localName_typeOfName? htype).2.1 n h]
  | .qualified package id, h => by
    cases hpath : s.importPath? package.name <;>
      simp_all [resolve, HostType.localName, TypeExpr.embeddedName]
  | .generic base args, h => by
    rw [resolve, localName_instantiate] at h
    exact embeddedName_of_localName s base h

/-- A type of the package, or a pointer to it, is written with its name. -/
theorem embeddedName_of_localName_stripPointer (s : Scope) {n : String} :
    ∀ e : TypeExpr, (s.resolve e).stripPointer.localName = some n →
      e.embeddedName.map Ident.name = some n
  | .ident id, h => by
    cases htype : s.typeOfName? id.name with
    | none => simp [resolve, htype, HostType.stripPointer, HostType.localName] at h
    | some type =>
      obtain ⟨-, hname, hstrip⟩ := localName_typeOfName? htype
      rw [resolve, htype, Option.getD_some, hstrip] at h
      simp [TypeExpr.embeddedName, hname n h]
  | .qualified package id, h => by
    cases hpath : s.importPath? package.name <;>
      simp_all [resolve, HostType.stripPointer, HostType.localName, TypeExpr.embeddedName]
  | .generic base args, h => by
    rw [resolve, localName_stripPointer_instantiate] at h
    exact embeddedName_of_localName_stripPointer s base h
  | .pointer _ elem, h =>
    s.embeddedName_of_localName elem (by simpa [resolve, HostType.stripPointer] using h)

end Scope

/-! ### Methods that are declared -/

/-- The names of receiver and method of a method. -/
def MethodDecl.key? (m : MethodDecl) : Option (String × String) :=
  m.receiverName.map (·, m.decl.name.name)

namespace Package

/-- The names of receiver and method of the methods so far. -/
def Declared.methodKeys (seen : Declared) : List (String × String) := seen.methods.map Prod.fst

/-- The declared methods are extended by new ones, the latest first. -/
structure Declared.ExtendedBy (seen after : Declared) (keys : List (String × String)) : Prop where
  methodKeys : after.methodKeys = keys.reverse ++ seen.methodKeys
  nodup : seen.methodKeys.Nodup → after.methodKeys.Nodup

namespace Declared.ExtendedBy

variable {seen mid after : Declared} {keys others : List (String × String)}

/-- Nothing has been declared yet. -/
theorem refl (seen : Declared) : seen.ExtendedBy seen [] := ⟨rfl, id⟩

/-- What two parts declare one after the other is what both declare. -/
theorem trans (h : seen.ExtendedBy mid keys) (h' : mid.ExtendedBy after others) :
    seen.ExtendedBy after (keys ++ others) where
  methodKeys := by rw [h'.methodKeys, h.methodKeys, List.reverse_append, List.append_assoc]
  nodup := h'.nodup ∘ h.nodup

end Declared.ExtendedBy

/-- If each item extends the declared methods when it has no problem, then so do all of them. -/
theorem extendedBy_checkAll {α : Type} {checkOne : Declared → α → Declared × List TypeProblem}
    {keys : α → List (String × String)}
    (hone : ∀ seen a, (checkOne seen a).2 = [] → seen.ExtendedBy (checkOne seen a).1 (keys a))
    (seen : Declared) (as : List α) (h : (checkAll checkOne seen as).2 = []) :
    seen.ExtendedBy (checkAll checkOne seen as).1 (as.flatMap keys) := by
  induction as generalizing seen with
  | nil => exact .refl seen
  | cons a as ih =>
    obtain ⟨ha, has⟩ := List.append_eq_nil_iff.mp h
    exact (hone seen a ha).trans (ih _ has)

/-- Checking a type declares no methods. -/
private theorem extendedBy_checkType (p : Package) (seen : Declared) (d : TypeDecl) :
    seen.ExtendedBy (p.checkType seen d).1 [] := by
  rw [checkType]
  split
  · exact .refl seen
  · exact ⟨rfl, id⟩

/-- A receiver without problems is a declared type, and the method is new to it. -/
theorem extendedBy_checkReceiver (p : Package) (seen : Declared) (m : MethodDecl)
    (receiver : Receiver) (h : (p.checkReceiver seen m receiver).2 = []) :
    ∃ name, receiver.typeName = some name ∧
      seen.ExtendedBy (p.checkReceiver seen m receiver).1 [(name, m.decl.name.name)] := by
  simp only [checkReceiver] at h ⊢
  cases hname : ((p.methodScope m).resolve receiver.type).stripPointer.localName with
  | none =>
    -- a type from elsewhere is a problem, and so is one that cannot be resolved
    simp only [hname] at h
    split at h
    · next hinvalid =>
      have htype : (p.methodScope m).resolve receiver.type = .invalid := by
        revert hinvalid
        cases (p.methodScope m).resolve receiver.type <;> simp [HostType.isInvalid]
      exact absurd h ((p.methodScope m).problems_ne_nil_of_resolve _ htype)
    · simp at h
  | some name =>
    refine ⟨name, (p.methodScope m).embeddedName_of_localName_stripPointer _ hname, ?_⟩
    simp only [hname] at h ⊢
    split at h
    · simp at h
    · next hlookup =>
      have hnew : (name, m.decl.name.name) ∉ seen.methodKeys := by
        intro hmem
        obtain ⟨entry, hentry, hkey⟩ := List.mem_map.mp hmem
        have := List.lookup_eq_none_iff.mp hlookup entry hentry
        simp [hkey] at this
      exact ⟨rfl, fun hnodup => List.nodup_cons.mpr ⟨hnew, hnodup⟩⟩

/-- A method without problems has a key that is new. -/
theorem extendedBy_checkMethod (p : Package) (seen : Declared) (m : MethodDecl)
    (h : (p.checkMethod seen m).2 = []) :
    seen.ExtendedBy (p.checkMethod seen m).1 m.key?.toList := by
  rw [checkMethod] at h ⊢
  cases hreceiver : m.decl.receiver with
  | none =>
    simp only [MethodDecl.key?, MethodDecl.receiverName, hreceiver]
    exact .refl seen
  | some receiver =>
    simp only [hreceiver, List.append_eq_nil_iff] at h
    obtain ⟨name, hname, hext⟩ := p.extendedBy_checkReceiver seen m receiver h.1.1
    simpa [MethodDecl.key?, MethodDecl.receiverName, hreceiver, hname] using hext

/-- A file without problems declares its methods, all of which are new. -/
theorem extendedBy_checkFile (p : Package) (seen : Declared) (file : SourceFile)
    (h : (p.checkFile seen file).2 = []) :
    seen.ExtendedBy (p.checkFile seen file).1
      ((file.funcs.map fun decl => (⟨file, decl⟩ : MethodDecl)).flatMap
        fun m => m.key?.toList) := by
  obtain ⟨htypes, hmethods⟩ := List.append_eq_nil_iff.mp h
  have hofTypes := @extendedBy_checkAll _ p.checkType (fun _ => [])
    (fun seen d _ => p.extendedBy_checkType seen d) seen _ htypes
  have hofMethods := extendedBy_checkAll p.extendedBy_checkMethod _ _ hmethods
  have hnone : ∀ ds : List TypeDecl, ds.flatMap (fun _ => ([] : List (String × String))) = [] := by
    simp
  have hext := hofTypes.trans hofMethods
  rw [hnone, List.nil_append] at hext
  exact hext

/-- In a package without problems no two methods have the same receiver and name. -/
theorem nodup_methodKeys {p : Package} (h : p.check = []) :
    (p.methodDecls.filterMap MethodDecl.key?).Nodup := by
  have hext := extendedBy_checkAll p.extendedBy_checkFile ⟨[], []⟩ p.files h
  have hnodup := hext.nodup (by simp [Declared.methodKeys])
  rw [hext.methodKeys] at hnodup
  have hkeys : p.methodDecls.filterMap MethodDecl.key? = p.files.flatMap fun file =>
      (file.funcs.map fun decl => (⟨file, decl⟩ : MethodDecl)).flatMap fun m => m.key?.toList := by
    rw [methodDecls, List.filterMap_eq_flatMap_toList, List.flatMap_assoc]
  rw [hkeys]
  simpa [Declared.methodKeys] using hnodup

/-- In a package without problems the methods of a type have different names. -/
theorem nodup_name_methodsOf {p : Package} (h : p.check = []) (receiver : String) :
    ((p.methodsOf receiver).map fun m => m.decl.name.name).Nodup := by
  have hkeys : (p.methodsOf receiver).filterMap MethodDecl.key? =
      ((p.methodsOf receiver).map fun m => m.decl.name.name).map (Prod.mk receiver) := by
    rw [List.map_map, ← List.filterMap_eq_map]
    refine List.filterMap_congr fun m hm => ?_
    have hname : m.receiverName = some receiver := by simpa using (List.mem_filter.mp hm).2
    simp [MethodDecl.key?, hname]
  have hnodup : ((p.methodsOf receiver).filterMap MethodDecl.key?).Nodup :=
    (List.filter_sublist.filterMap _).nodup (nodup_methodKeys h)
  exact List.Nodup.of_map _ (hkeys ▸ hnodup)

end Package

end GoPages
