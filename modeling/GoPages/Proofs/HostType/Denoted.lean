import GoPages.Proofs.HostType.Written
import GoPages.Proofs.Package.Loading
import GoPages.Proofs.Package.Resolved
import GoPages.Proofs.TypeExpr.Written

/-!
# The types that type expressions denote

* `Scope.isWritten_resolve`: what a type expression denotes is as it is written, if all names in it
  have a meaning. Imports have to be of paths of ordinary characters (`Scope.HasOrdinaryPaths`), and
  the brackets in the lengths of arrays have to be closed (`TypeExpr.HasNestedLength`).
* `Scope.isExported_embeddedName`: an embedded field is exported if the name of the type that it
  denotes is, though the names can differ.
* `Package.IsWellSpelled` is what this takes of all declarations of a package, and
  `Package.isWritten_declared` what follows for them.
-/

namespace GoPages

open Text (Nested)

/-! ### Lengths of arrays -/

namespace TypeExpr

/-- If the type is that of an array, the brackets in its length are closed. -/
def HasNestedLength : TypeExpr → Prop
  | array _ len _ => Nested (fun _ => false) len.toList
  | _ => True

/-- If the type is that of an array, are there no brackets and no quotes in its length? -/
def hasPlainLength : TypeExpr → Bool
  | array _ len _ => len.toList.all Text.isPlain
  | _ => true

/-- A length without brackets and marks has none that are not closed. -/
private theorem HasNestedLength.of_hasPlainLength {e : TypeExpr} (h : e.hasPlainLength) :
    e.HasNestedLength := by
  cases e with
  | array l len elem => exact .of_forall fun c hc => ⟨List.all_eq_true.mp h c hc, rfl⟩
  | _ => trivial

end TypeExpr

namespace Scope

/-- The imports of the scope have paths of ordinary characters. -/
structure HasOrdinaryPaths (s : Scope) : Prop where
  imports : ∀ entry ∈ s.imports, isOrdinaryPath entry.2
  dot : ∀ path, s.dotImport = some path → isOrdinaryPath path

variable {s : Scope}

/-! ### Names -/

/-- A predeclared type is written, can be embedded, and is exported exactly if its name is. -/
private theorem predeclared?_word {name : String} (hname : isWord name) {type : HostType}
    (h : predeclared? name = some type) :
    type.IsWritten ∧ type.canEmbed ∧ isExported type.typeName = isExported name := by
  unfold predeclared? at h
  split at h
  case h_6 =>
    rw [Option.ite_none_right_eq_some] at h
    obtain ⟨-, h⟩ := h
    cases h
    exact ⟨.basic hname, rfl, rfl⟩
  case h_1 =>
    cases h
    exact ⟨.error, rfl, rfl⟩
  case h_2 | h_3 =>
    cases h
    exact ⟨.basic (by decide), rfl, by decide⟩
  all_goals
    cases h
    exact ⟨.interface _, rfl, by decide⟩

/-- The type that a name denotes. -/
theorem typeOfName?_word (hs : s.HasOrdinaryPaths) {name : String} (hname : isWord name)
    {type : HostType} (h : s.typeOfName? name = some type) :
    type.IsWritten ∧ type.canEmbed ∧ isExported type.typeName = isExported name := by
  rw [typeOfName?] at h
  split_ifs at h
  · cases h
    exact ⟨.typeParam hname, rfl, rfl⟩
  · cases h
    exact ⟨.named (.inl rfl) hname (List.forall_mem_nil _), rfl, rfl⟩
  · split at h
    · next ht => exact Option.some.inj h ▸ predeclared?_word hname ht
    · obtain ⟨path, hpath, rfl⟩ := Option.map_eq_some_iff.mp h
      exact ⟨.named (.inr (hs.dot path hpath)) hname (List.forall_mem_nil _), rfl, rfl⟩

private theorem isOrdinaryPath_of_importPath? (hs : s.HasOrdinaryPaths) {package path : String}
    (h : s.importPath? package = some path) : isOrdinaryPath path := by
  rw [importPath?, List.lookup_eq_some_iff] at h
  obtain ⟨before, after, heq, -⟩ := h
  exact hs.imports (package, path) (by simp [heq])

/-! ### Embedded fields -/

@[simp] theorem typeName_instantiate (args : List HostType) (t : HostType) :
    (instantiate args t).typeName = t.typeName := by
  cases t <;> rfl

@[simp] theorem canEmbed_instantiate (args : List HostType) (t : HostType) :
    (instantiate args t).canEmbed = t.canEmbed := by
  cases t <;> rfl

/-- An embedded field is exported if the name of its type is. -/
theorem isExported_embeddedName (hs : s.HasOrdinaryPaths) {e : TypeExpr} (he : e.IsWritten)
    (hproblems : s.problems e = []) :
    isExported ((e.embeddedName.map Ident.name).getD "") = isExported (s.resolve e).typeName := by
  -- a type that has no name to embed does not start with a capital letter
  have hother : ∀ word ∈ ["", "map", "chan", "func", "struct", "interface"],
      isExported "" = isExported word := by
    decide
  induction he with
  | ident h =>
    obtain ⟨type, htype, hresolve⟩ := exists_of_problems_ident hproblems
    exact hresolve ▸ (typeOfName?_word hs h.isWord htype).2.2.symm
  | qualified =>
    obtain ⟨path, -, hresolve⟩ := exists_of_problems_qualified hproblems
    rw [hresolve]
    rfl
  | generic _ _ _ _ ih =>
    rw [resolve, typeName_instantiate]
    exact ih (List.append_eq_nil_iff.mp hproblems).2
  | pointer _ _ ih =>
    rw [resolve]
    exact ih hproblems
  | slice | array | ellipsis => exact hother "" (by decide)
  | map => exact hother "map" (by decide)
  | chan => exact hother "chan" (by decide)
  | func => exact hother "func" (by decide)
  | struct => exact hother "struct" (by decide)
  | interface => exact hother "interface" (by decide)

/-- What can be embedded as it is written denotes a type that can be embedded. -/
private theorem canEmbed_resolve (hs : s.HasOrdinaryPaths) {e : TypeExpr} (he : e.IsWritten)
    (hembed : e.canEmbed) (hproblems : s.problems e = []) : (s.resolve e).canEmbed := by
  induction he with
  | ident h =>
    obtain ⟨type, htype, hresolve⟩ := exists_of_problems_ident hproblems
    exact hresolve ▸ (typeOfName?_word hs h.isWord htype).2.1
  | qualified =>
    obtain ⟨path, -, hresolve⟩ := exists_of_problems_qualified hproblems
    rw [hresolve]
    rfl
  | generic hname _ _ _ ih =>
    rw [resolve, canEmbed_instantiate]
    exact ih (TypeExpr.canEmbed_of_isTypeName hname) (List.append_eq_nil_iff.mp hproblems).2
  | pointer =>
    rw [resolve]
    rfl
  | _ => cases hembed

/-- The fields of a field declaration. -/
theorem fieldIsWritten_of_mem_fieldsOf (hs : s.HasOrdinaryPaths) {decl : FieldDecl}
    (hdecl : decl.IsWritten) (hproblems : s.problems decl.type = [])
    (htype : (s.resolve decl.type).IsWritten) :
    ∀ f ∈ fieldsOf decl.names decl.type decl.tag (s.resolve decl.type),
      HostType.FieldIsWritten f := by
  intro f hf
  rw [fieldsOf] at hf
  split at hf
  · next hnames =>
    have hembed := hdecl.canEmbed (List.isEmpty_iff.mp hnames)
    have hexported := isExported_embeddedName hs hdecl.type hproblems
    have hcan := canEmbed_resolve hs hdecl.type hembed hproblems
    split at hf
    · next id hid =>
      rw [hid] at hexported
      rw [List.mem_singleton.mp hf]
      exact ⟨Bool.noConfusion, fun _ => ⟨hcan, hexported⟩, htype⟩
    · next hnone =>
      rw [hnone] at hexported
      rw [List.mem_singleton.mp hf]
      exact ⟨Bool.noConfusion, fun _ => ⟨hcan, hexported⟩, htype⟩
  · obtain ⟨id, hid, rfl⟩ := List.mem_map.mp hf
    exact ⟨fun _ => (hdecl.names id hid).isWord, Bool.noConfusion, htype⟩

/-! ### Types -/

/-- Type arguments that are written make a written type. -/
private theorem isWritten_instantiate {args : List HostType} {t : HostType}
    (hargs : ∀ arg ∈ args, arg.IsWritten) (ht : t.IsWritten) : (instantiate args t).IsWritten := by
  cases t with
  | named path name _ =>
    cases ht with
    | named hpath h => exact .named hpath h hargs
  | _ => exact ht

/-- **What a type expression denotes** is written as the expression is. -/
theorem isWritten_resolve (hs : s.HasOrdinaryPaths) {e : TypeExpr} (he : e.IsWritten)
    (hlengths : ∀ part ∈ e.parts, part.HasNestedLength) (hproblems : s.problems e = []) :
    (s.resolve e).IsWritten := by
  -- a type is written if its parts are; only a type of another package looks at the path it is
  -- imported from, and only an array at its length
  induction he with
  | ident h =>
    obtain ⟨type, htype, hresolve⟩ := exists_of_problems_ident hproblems
    exact hresolve ▸ (typeOfName?_word hs h.isWord htype).1
  | qualified _ h =>
    obtain ⟨path, hpath, hresolve⟩ := exists_of_problems_qualified hproblems
    rw [hresolve]
    exact .named (.inr (isOrdinaryPath_of_importPath? hs hpath)) h.isWord (List.forall_mem_nil _)
  | generic _ _ _ _ ih ihargs =>
    rw [TypeExpr.parts_generic, List.forall_mem_cons, List.forall_mem_append,
      List.forall_mem_flatMap] at hlengths
    obtain ⟨hargs, hbase⟩ := List.append_eq_nil_iff.mp hproblems
    rw [problemsList_eq, List.flatMap_eq_nil_iff] at hargs
    rw [resolve, resolveList_eq]
    refine isWritten_instantiate (List.forall_mem_map.mpr fun arg harg => ?_)
      (ih hlengths.2.1 hbase)
    exact ihargs arg harg (hlengths.2.2 arg harg) (hargs arg harg)
  | pointer _ _ ih =>
    rw [TypeExpr.parts, List.forall_mem_cons] at hlengths
    rw [resolve]
    exact .pointer (ih hlengths.2 hproblems)
  | slice _ _ ih | ellipsis _ _ ih =>
    rw [TypeExpr.parts, List.forall_mem_cons] at hlengths
    rw [resolve]
    exact .slice (ih hlengths.2 hproblems)
  | array _ _ _ ih =>
    rw [TypeExpr.parts, List.forall_mem_cons] at hlengths
    rw [resolve]
    exact .array hlengths.1 (ih hlengths.2 hproblems)
  | map _ _ _ ihkey ihvalue =>
    rw [TypeExpr.parts, List.forall_mem_cons, List.forall_mem_append] at hlengths
    obtain ⟨hkey, hvalue⟩ := List.append_eq_nil_iff.mp hproblems
    rw [resolve]
    exact .map (ihkey hlengths.2.1 hkey) (ihvalue hlengths.2.2 hvalue)
  | chan _ _ _ ih =>
    rw [TypeExpr.parts, List.forall_mem_cons] at hlengths
    rw [resolve]
    exact .chan (ih hlengths.2 hproblems)
  | func _ _ _ _ ihparams ihresults =>
    rw [TypeExpr.parts_func, List.forall_mem_cons, List.forall_mem_append, List.forall_mem_flatMap,
      List.forall_mem_flatMap] at hlengths
    obtain ⟨hparams, hresults⟩ := List.append_eq_nil_iff.mp hproblems
    rw [problemsParams_eq, List.flatMap_eq_nil_iff] at hparams hresults
    rw [resolve, resolveParams_eq, resolveParams_eq]
    refine .func _ (List.forall_mem_map.mpr fun param hparam => ?_)
      (List.forall_mem_map.mpr fun result hresult => ?_)
    · exact ihparams param hparam (hlengths.2.1 param hparam) (hparams param hparam)
    · exact ihresults result hresult (hlengths.2.2 result hresult) (hresults result hresult)
  | struct _ hnames hembedded hfield ih =>
    rw [TypeExpr.parts_struct, List.forall_mem_cons, List.forall_mem_flatMap] at hlengths
    rw [problems, problemsFields_eq, List.flatMap_eq_nil_iff] at hproblems
    rw [resolve, resolveFields_eq, HostType.isWritten_struct, List.forall_mem_flatMap]
    intro decl hdecl
    exact fieldIsWritten_of_mem_fieldsOf hs ⟨hnames decl hdecl, hembedded decl hdecl,
      hfield decl hdecl⟩ (hproblems decl hdecl) (ih decl hdecl (hlengths.2 decl hdecl)
        (hproblems decl hdecl))
  | interface _ empty =>
    rw [resolve]
    exact .interface empty

end Scope

/-! ### Types of packages -/

namespace Package

/-- The types of the package are well spelled: all names in them have a meaning, import paths are of
ordinary characters, and the brackets in the lengths of arrays are closed. -/
structure IsWellSpelled (p : Package) : Prop where
  problems : ∀ d ∈ p.typeDecls, (p.declScope d).problems d.spec.type = []
  paths : ∀ file ∈ p.files, ∀ i ∈ file.imports, isOrdinaryPath i.path
  lengths : ∀ d ∈ p.typeDecls, ∀ part ∈ d.spec.type.parts, part.HasNestedLength

variable {p : Package} {d : TypeDecl}

/-- Are all names in the declared types defined, all import paths of ordinary characters, and all
lengths of arrays without brackets? -/
def isWellSpelled (p : Package) : Bool :=
  (p.typeDecls.all fun d => ((p.declScope d).problems d.spec.type).isEmpty &&
    d.spec.type.parts.all TypeExpr.hasPlainLength) &&
  p.files.all fun file => file.imports.all fun i => isOrdinaryPath i.path

/-- The test says that the declarations are well spelled. -/
theorem IsWellSpelled.of_isWellSpelled (h : p.isWellSpelled) : p.IsWellSpelled := by
  simp only [isWellSpelled, Bool.and_eq_true, List.all_eq_true, List.isEmpty_iff] at h
  exact ⟨fun d hd => (h.1 d hd).1, h.2, fun d hd part hpart =>
    .of_hasPlainLength ((h.1 d hd).2 part hpart)⟩

private theorem file_mem_of_mem_typeDecls (hd : d ∈ p.typeDecls) : d.file ∈ p.files := by
  obtain ⟨file, hfile, hd⟩ := List.mem_flatMap.mp hd
  obtain ⟨spec, -, rfl⟩ := List.mem_map.mp hd
  exact hfile

/-- The scope of a declaration has the imports of its file. -/
private theorem hasOrdinaryPaths_declScope (h : p.IsWellSpelled) (hd : d ∈ p.typeDecls) :
    (p.declScope d).HasOrdinaryPaths := by
  have hpaths := h.paths d.file (file_mem_of_mem_typeDecls hd)
  refine ⟨fun entry hentry => ?_, fun path hpath => ?_⟩
  · obtain ⟨i, hi, hname⟩ := List.mem_filterMap.mp (List.mem_reverse.mp hentry)
    obtain ⟨name, -, rfl⟩ := Option.map_eq_some_iff.mp hname
    exact hpaths i hi
  · obtain ⟨i, hi, rfl⟩ := Option.map_eq_some_iff.mp hpath
    exact hpaths i (List.mem_filter.mp (List.mem_of_getLast? hi)).1

/-- The declarations of a package are as they are written. -/
theorem isWritten_of_mem_typeDecls {sources : List Source} (hload : load sources = .ok p)
    (hd : d ∈ p.typeDecls) : d.spec.IsWritten := by
  obtain ⟨file, hfile, hd⟩ := List.mem_flatMap.mp hd
  obtain ⟨spec, hspec, rfl⟩ := List.mem_map.mp hd
  have hparsed := parseAll_eq_ok_iff.mp (parseAll_of_load hload)
  obtain ⟨i, hi, rfl⟩ := List.getElem_of_mem hfile
  obtain ⟨hlen, hget⟩ := List.forall₂_iff_get.mp hparsed
  exact (SourceFile.isWritten_of_parse (hget i (hlen ▸ hi) hi)).1 spec hspec

/-- What a declaration declares is written as it is. -/
theorem isWritten_declared {sources : List Source} (hload : load sources = .ok p)
    (h : p.IsWellSpelled) (hd : d ∈ p.typeDecls) :
    ((p.declScope d).resolve d.spec.type).IsWritten :=
  Scope.isWritten_resolve (hasOrdinaryPaths_declScope h hd)
    (isWritten_of_mem_typeDecls hload hd).type (h.lengths d hd) (h.problems d hd)

end Package

end GoPages
