import GoPages.Package.Check
import GoPages.Package.Declarations
import GoPages.Proofs.Package.FirstEntries
import GoPages.Proofs.Package.Resolved

/-!
# Types and methods that are declared again

Of several declarations of a name the first one counts, in the order of the files and then of the
text. Three passes over the declarations pick it, each with a table of its own:

* `Package.placeTable` has the place of a declared type, from which `Package.typeSpec?` takes the
  declaration;
* `Package.indexTable` has the declaration itself;
* `Package.check` has its location, and reports the declarations after it.
  `Package.acceptedPlaces` are the places that are not reported.

`Package.first_declarations_count` puts them together: the three pick the declaration that
`Package.typeDecl?` finds. All other declarations of the name are reported, each with the location
of the first one, and so are all methods after the first one of the same name and receiver.
-/

namespace GoPages

/-- The location of the name of a method. -/
def MethodDecl.location (m : MethodDecl) : Location := m.decl.name.location

/-! ### Problems -/

namespace TypeProblem

/-- The name of the type that is declared again, if this is the problem. -/
def redeclaredType? (t : TypeProblem) : Option String :=
  match t.fault with
  | .typeRedeclared name _ => some name
  | _ => none

/-- The names of receiver and method of the method that is declared again, if this is the
problem. -/
def redeclaredMethod? (t : TypeProblem) : Option (String × String) :=
  match t.fault with
  | .methodRedeclared receiver method _ => some (receiver, method)
  | _ => none

/-- The problem is not that something is declared again. -/
def RedeclaresNothing (t : TypeProblem) : Prop :=
  t.redeclaredType? = none ∧ t.redeclaredMethod? = none

end TypeProblem

namespace Scope

mutual

/-- A type expression declares nothing again. -/
theorem redeclaresNothing_problems (s : Scope) :
    ∀ e : TypeExpr, ∀ t ∈ s.problems e, t.RedeclaresNothing
  | .ident id, t, ht => by
    obtain ⟨-, ht⟩ := List.mem_ite_nil_left.mp ht
    exact List.mem_singleton.mp ht ▸ ⟨rfl, rfl⟩
  | .qualified package id, t, ht => by
    obtain ⟨-, ht⟩ := List.mem_ite_nil_left.mp ht
    exact List.mem_singleton.mp ht ▸ ⟨rfl, rfl⟩
  | .generic base args, t, ht =>
    (List.mem_append.mp ht).elim (redeclaresNothing_problemsList s args t)
      (redeclaresNothing_problems s base t)
  | .pointer _ elem, t, ht | .slice _ elem, t, ht | .ellipsis _ elem, t, ht
  | .array _ _ elem, t, ht | .chan _ _ elem, t, ht => redeclaresNothing_problems s elem t ht
  | .map _ key value, t, ht =>
    (List.mem_append.mp ht).elim (redeclaresNothing_problems s key t)
      (redeclaresNothing_problems s value t)
  | .func ⟨params, results, _⟩, t, ht =>
    (List.mem_append.mp ht).elim (redeclaresNothing_problemsParams s params t)
      (redeclaresNothing_problemsParams s results t)
  | .struct _ fields, t, ht => redeclaresNothing_problemsFields s fields t ht
  | .interface _ _, _, ht => absurd ht List.not_mem_nil

private theorem redeclaresNothing_problemsList (s : Scope) :
    ∀ es : List TypeExpr, ∀ t ∈ s.problemsList es, t.RedeclaresNothing
  | [], _, ht => absurd ht List.not_mem_nil
  | e :: es, t, ht =>
    (List.mem_append.mp ht).elim (redeclaresNothing_problems s e t)
      (redeclaresNothing_problemsList s es t)

private theorem redeclaresNothing_problemsParams (s : Scope) :
    ∀ params : List (ParamOf TypeExpr), ∀ t ∈ s.problemsParams params, t.RedeclaresNothing
  | [], _, ht => absurd ht List.not_mem_nil
  | ⟨_, type⟩ :: params, t, ht =>
    (List.mem_append.mp ht).elim (redeclaresNothing_problems s type t)
      (redeclaresNothing_problemsParams s params t)

private theorem redeclaresNothing_problemsFields (s : Scope) :
    ∀ fields : List (FieldOf TypeExpr), ∀ t ∈ s.problemsFields fields, t.RedeclaresNothing
  | [], _, ht => absurd ht List.not_mem_nil
  | ⟨_, type, _⟩ :: fields, t, ht =>
    (List.mem_append.mp ht).elim (redeclaresNothing_problems s type t)
      (redeclaresNothing_problemsFields s fields t)

end

end Scope

namespace Package

variable {p : Package} {name : String}

/-! ### The tables of declared types -/

/-- The declared types with the number of their file and their number in the file. -/
def places (p : Package) : List ((ℕ × ℕ) × TypeDecl) :=
  p.files.zipIdx.flatMap fun f => f.1.types.zipIdx.map fun s => ((f.2, s.2), ⟨f.1, s.1⟩)

/-- The places of the declared types by their names. -/
def placeTable (p : Package) : List (String × (ℕ × ℕ)) :=
  enterAll [] (p.files.zipIdx.flatMap fun f =>
    f.1.types.zipIdx.map fun s => (s.1.name.name, (f.2, s.2)))

/-- The declaration at the place of a name, with the number of its file. -/
def typeSpec? (p : Package) (name : String) : Option (ℕ × TypeSpec) := do
  let place ← p.placeTable.lookup name
  let file ← p.files[place.1]?
  let spec ← file.types[place.2]?
  return (place.1, spec)

/-- The declared types by their names, each with the number of its file. -/
def indexTable (p : Package) : List (String × (ℕ × TypeSpec)) :=
  enterAll [] (p.files.zipIdx.flatMap fun f =>
    f.1.types.map fun spec => (spec.name.name, (f.2, spec)))

/-- The items of a pass, each with the declarations that are seen before it. -/
def turns {α : Type} (checkOne : Declared → α → Declared × List TypeProblem) :
    Declared → List α → List (Declared × α)
  | _, [] => []
  | seen, a :: rest => (seen, a) :: turns checkOne (checkOne seen a).1 rest

/-- Is no type reported as declared again at the turn of a declaration? -/
def accepts (p : Package) (turn : Declared × TypeDecl) : Bool :=
  (p.checkType turn.1 turn.2).2.all fun t => t.redeclaredType?.isNone

/-- The declared types that a check does not report as declared again, with their places. -/
def acceptedPlaces (p : Package) : List ((ℕ × ℕ) × TypeDecl) :=
  (turns p.checkFile ⟨[], []⟩ p.files).zipIdx.flatMap fun f =>
    (turns p.checkType f.1.1 (f.1.2.types.map fun spec => ⟨f.1.2, spec⟩)).zipIdx.filterMap
      fun d => if p.accepts d.1 then some ((f.2, d.2), d.1.2) else none

/-- The first declaration of a name, with its place. -/
def firstPlace? (p : Package) (name : String) : Option ((ℕ × ℕ) × TypeDecl) :=
  p.places.find? fun q => q.2.name == name

/-! ### Picking declarations -/

section Numbered

variable {α β : Type}

private theorem map_fst_zipIdx (f : α → β) (as : List α) (n : ℕ) :
    ((as.zipIdx n).map fun a => f a.1) = as.map f := by
  have hcomp : (fun a : α × ℕ => f a.1) = f ∘ Prod.fst := rfl
  rw [hcomp, ← List.map_map, List.zipIdx_map_fst]

private theorem flatMap_fst_zipIdx (f : α → List β) (as : List α) (n : ℕ) :
    ((as.zipIdx n).flatMap fun a => f a.1) = as.flatMap f := by
  rw [← List.flatMap_map, List.zipIdx_map_fst]

end Numbered

/-- The places are those of all declared types, in their order. -/
private theorem map_snd_places (p : Package) : p.places.map Prod.snd = p.typeDecls := by
  rw [places, List.map_flatMap, typeDecls, ← flatMap_fst_zipIdx _ p.files 0]
  refine congrArg (List.flatMap · _) (funext fun f => ?_)
  rw [List.map_map]
  exact map_fst_zipIdx (fun spec => (⟨f.1, spec⟩ : TypeDecl)) f.1.types 0

/-- The declared types stand in the order of their files, and in a file in the order of the text. -/
theorem pairwise_places (p : Package) :
    p.places.Pairwise fun q r => q.1.1 < r.1.1 ∨ q.1.1 = r.1.1 ∧ q.1.2 < r.1.2 := by
  have hnumbers {α : Type} (as : List α) : as.zipIdx.Pairwise fun a b => a.2 < b.2 := by
    have h : (List.range' 0 as.length).Pairwise (· < ·) := List.pairwise_lt_range'
    rw [← List.zipIdx_map_snd 0 as, List.pairwise_map] at h
    exact h
  rw [places, List.pairwise_flatMap]
  refine ⟨fun f _ => ?_, (hnumbers p.files).imp fun hlt q hq r hr => ?_⟩
  · rw [List.pairwise_map]
    exact (hnumbers f.1.types).imp fun hlt => .inr ⟨rfl, hlt⟩
  · obtain ⟨s, -, rfl⟩ := List.mem_map.mp hq
    obtain ⟨s', -, rfl⟩ := List.mem_map.mp hr
    exact .inl hlt

/-- The first declaration of a name stands before all others of the name. -/
theorem before_of_firstPlace? {q r : (ℕ × ℕ) × TypeDecl} (hq : p.firstPlace? name = some q)
    (hr : r ∈ p.places) (hname : r.2.name = name) :
    r = q ∨ q.1.1 < r.1.1 ∨ q.1.1 = r.1.1 ∧ q.1.2 < r.1.2 := by
  obtain ⟨-, before, after, hsplit, hbefore⟩ := List.find?_eq_some_iff_append.mp hq
  have hordered := p.pairwise_places
  rw [hsplit, List.pairwise_append, List.pairwise_cons] at hordered
  rw [hsplit, List.mem_append, List.mem_cons] at hr
  rcases hr with hmem | rfl | hmem
  · simpa [hname] using hbefore r hmem
  · exact .inl rfl
  · exact .inr (hordered.2.1.1 r hmem)

/-- The declaration that counts is the one at the first place. -/
private theorem typeDecl?_eq_firstPlace? (p : Package) (name : String) :
    p.typeDecl? name = (p.firstPlace? name).map Prod.snd := by
  rw [typeDecl?, findDecl?, ← map_snd_places, List.find?_map]
  rfl

/-- A place gives the file and the declaration in it. -/
private theorem getElem?_of_mem_places {q : (ℕ × ℕ) × TypeDecl} (hq : q ∈ p.places) :
    p.files[q.1.1]? = some q.2.file ∧ q.2.file.types[q.1.2]? = some q.2.spec := by
  obtain ⟨f, hf, hq⟩ := List.mem_flatMap.mp hq
  obtain ⟨s, hs, rfl⟩ := List.mem_map.mp hq
  exact ⟨List.mem_zipIdx_iff_getElem?.mp hf, List.mem_zipIdx_iff_getElem?.mp hs⟩

/-- The table of places is made of the places in their order. -/
private theorem placeTable_eq (p : Package) :
    p.placeTable = enterAll [] (p.places.map fun q => (q.2.name, q.1)) := by
  rw [placeTable, places, List.map_flatMap]
  simp only [List.map_map]
  rfl

/-- What the table of places leads to is the first declaration. -/
private theorem typeSpec?_eq_firstPlace? (p : Package) (name : String) :
    p.typeSpec? name = (p.firstPlace? name).map fun q => (q.1.1, q.2.spec) := by
  rw [typeSpec?, placeTable_eq, lookup_enterAll_nil, lookup_map, firstPlace?]
  cases h : p.places.find? fun q => q.2.name == name with
  | none => rfl
  | some q =>
    obtain ⟨hfile, hspec⟩ := getElem?_of_mem_places (List.mem_of_find?_eq_some h)
    simp [hfile, hspec]

/-- So is what the index has. -/
private theorem lookup_indexTable (p : Package) (name : String) :
    p.indexTable.lookup name = (p.firstPlace? name).map fun q => (q.1.1, q.2.spec) := by
  have hentries : (p.files.zipIdx.flatMap fun f =>
      f.1.types.map fun spec => (spec.name.name, (f.2, spec))) =
      p.places.map fun q => (q.2.name, (q.1.1, q.2.spec)) := by
    rw [places, List.map_flatMap]
    refine congrArg (List.flatMap · _) (funext fun f => ?_)
    rw [List.map_map, ← map_fst_zipIdx _ f.1.types 0]
    rfl
  rw [indexTable, hentries, lookup_enterAll_nil, lookup_map, firstPlace?]

/-! ### What a check remembers and reports -/

/-- A pass enters the items of one kind into its table in their order, and reports those that are
passed over. -/
structure Records {α κ : Type} [BEq κ] (table : Declared → List (κ × Location))
    (isRepeat : TypeProblem → Bool) (say : (κ × Location) × Location → TypeProblem)
    (entries : α → List (κ × Location))
    (checkOne : Declared → α → Declared × List TypeProblem) : Prop where
  enters : ∀ seen a, table (checkOne seen a).1 = enterAll (table seen) (entries a)
  reports : ∀ seen a,
    (checkOne seen a).2.filter isRepeat = (repeats (table seen) (entries a)).map say

section Records

variable {α κ : Type} [BEq κ] {table : Declared → List (κ × Location)}
  {isRepeat : TypeProblem → Bool} {say : (κ × Location) × Location → TypeProblem}

/-- If each item does, then so do all of them. -/
theorem Records.checkAll {entries : α → List (κ × Location)}
    {checkOne : Declared → α → Declared × List TypeProblem}
    (h : Records table isRepeat say entries checkOne) :
    Records table isRepeat say (fun as => as.flatMap entries) (checkAll checkOne) where
  enters seen as := by
    induction as generalizing seen with
    | nil => rfl
    | cons a as ih =>
      rw [List.flatMap_cons, enterAll_append, ← h.enters, ← ih]
      rfl
  reports seen as := by
    induction as generalizing seen with
    | nil => rfl
    | cons a as ih =>
      rw [List.flatMap_cons, repeats_append, List.map_append, ← h.reports, ← h.enters, ← ih,
        ← List.filter_append]
      rfl

/-- A file does if its types and its functions do. -/
theorem Records.checkFile {ofType : TypeDecl → List (κ × Location)}
    {ofMethod : MethodDecl → List (κ × Location)}
    (htypes : Records table isRepeat say ofType p.checkType)
    (hmethods : Records table isRepeat say ofMethod p.checkMethod) :
    Records table isRepeat say (fun file : SourceFile =>
      (file.types.map fun spec => ⟨file, spec⟩).flatMap ofType ++
        (file.funcs.map fun decl => ⟨file, decl⟩).flatMap ofMethod) p.checkFile where
  enters seen file := by
    rw [enterAll_append, ← htypes.checkAll.enters, ← hmethods.checkAll.enters]
    rfl
  reports seen file := by
    rw [repeats_append, List.map_append, ← htypes.checkAll.enters, ← htypes.checkAll.reports,
      ← hmethods.checkAll.reports, ← List.filter_append]
    rfl

end Records

/-- The names of receiver and method of a method, if its receiver is a type of the package or a
pointer to one. -/
def methodKey? (p : Package) (m : MethodDecl) : Option (String × String) :=
  m.decl.receiver.bind fun r =>
    ((p.methodScope m).resolve r.type).stripPointer.localName.map (·, m.decl.name.name)

/-- The entry of a method, if it has one. -/
def methodEntries (p : Package) (m : MethodDecl) : List ((String × String) × Location) :=
  ((p.methodKey? m).map (·, m.location)).toList

/-- What is said about a type that is declared again, given the location of the first one. -/
def sayType (r : (String × Location) × Location) : TypeProblem :=
  ⟨r.1.2, .typeRedeclared r.1.1 r.2⟩

/-- What is said about a method that is declared again, given the location of the first one. -/
def sayMethod (r : ((String × String) × Location) × Location) : TypeProblem :=
  ⟨r.1.2, .methodRedeclared r.1.1.1 r.1.1.2 r.2⟩

section Kinds

variable (p : Package)

/-- A receiver enters and reports its method by its entry. -/
theorem exists_checkReceiver_eq (seen : Declared) {m : MethodDecl} {r : Receiver}
    (hr : m.decl.receiver = some r) :
    ∃ before : List TypeProblem, (∀ t ∈ before, t.RedeclaresNothing) ∧
      p.checkReceiver seen m r =
        ({ seen with methods := enterAll seen.methods (p.methodEntries m) },
          before ++ (repeats seen.methods (p.methodEntries m)).map sayMethod) := by
  have hproblems := (p.methodScope m).redeclaresNothing_problems r.type
  cases hname : ((p.methodScope m).resolve r.type).stripPointer.localName with
  | none =>
    have hentries : p.methodEntries m = [] := by
      simp [methodEntries, methodKey?, hr, hname]
    simp only [checkReceiver, hname, hentries, enterAll, repeats, List.foldl_nil, List.map_nil,
      List.append_nil]
    split
    · exact ⟨_, hproblems, rfl⟩
    · refine ⟨_, List.forall_mem_append.mpr ⟨hproblems, ?_⟩, rfl⟩
      exact List.forall_mem_singleton.mpr ⟨rfl, rfl⟩
  | some name =>
    have hentries : p.methodEntries m = [((name, m.decl.name.name), m.location)] := by
      simp [methodEntries, methodKey?, hr, hname]
    refine ⟨_, hproblems, ?_⟩
    simp only [checkReceiver, hname, hentries, enterAll, repeats, enter, List.foldl_cons,
      List.foldl_nil]
    cases seen.methods.lookup (name, m.decl.name.name) <;> simp [sayMethod, MethodDecl.location]

/-- A method is entered and reported by its entry. Its other problems declare nothing again. -/
theorem exists_checkMethod_eq (seen : Declared) (m : MethodDecl) :
    ∃ before after : List TypeProblem, (∀ t ∈ before, t.RedeclaresNothing) ∧
      (∀ t ∈ after, t.RedeclaresNothing) ∧ p.checkMethod seen m =
        ({ seen with methods := enterAll seen.methods (p.methodEntries m) },
          before ++ (repeats seen.methods (p.methodEntries m)).map sayMethod ++ after) := by
  have hafter := List.forall_mem_append.mpr
    ⟨(p.methodScope m).redeclaresNothing_problemsParams m.decl.type.params,
      (p.methodScope m).redeclaresNothing_problemsParams m.decl.type.results⟩
  cases hr : m.decl.receiver with
  | none =>
    refine ⟨[], _, List.forall_mem_nil _, hafter, ?_⟩
    simp [checkMethod, methodEntries, methodKey?, hr, repeats, enterAll]
  | some r =>
    obtain ⟨before, hbefore, heq⟩ := p.exists_checkReceiver_eq seen hr
    refine ⟨before, _, hbefore, hafter, ?_⟩
    simp [checkMethod, hr, heq]

/-- Problems that declare nothing again are not among those that are looked for. -/
theorem filter_eq_nil_of_redeclaresNothing {isRepeat : TypeProblem → Bool}
    (hrepeat : ∀ t, t.RedeclaresNothing → isRepeat t = false) {problems : List TypeProblem}
    (h : ∀ t ∈ problems, t.RedeclaresNothing) : problems.filter isRepeat = [] :=
  List.filter_eq_nil_iff.mpr fun t ht => by simp [hrepeat t (h t ht)]

private theorem not_isSome_redeclaredType? (t : TypeProblem) (h : t.RedeclaresNothing) :
    t.redeclaredType?.isSome = false := by
  rw [h.1, Option.isSome_none]

private theorem not_isSome_redeclaredMethod? (t : TypeProblem) (h : t.RedeclaresNothing) :
    t.redeclaredMethod?.isSome = false := by
  rw [h.2, Option.isSome_none]

/-- A type is entered under its name, and reported if the name is taken. -/
private theorem records_types_checkType :
    Records Declared.types (fun t => t.redeclaredType?.isSome) sayType
      (fun d => [(d.name, d.location)]) p.checkType where
  enters seen d := by
    have hone : enterAll seen.types [(d.name, d.location)] =
      enter seen.types (d.name, d.location) := rfl
    rw [hone, enter, checkType]
    cases seen.types.lookup d.name <;> rfl
  reports seen d := by
    rw [repeats, checkType]
    cases seen.types.lookup d.name with
    | some previous => rfl
    | none =>
      exact filter_eq_nil_of_redeclaresNothing not_isSome_redeclaredType?
        ((p.declScope d).redeclaresNothing_problems d.spec.type)

/-- A method neither enters nor reports a type. -/
private theorem records_types_checkMethod :
    Records Declared.types (fun t => t.redeclaredType?.isSome) sayType (fun _ => [])
      p.checkMethod where
  enters seen m := by
    obtain ⟨before, after, -, -, heq⟩ := p.exists_checkMethod_eq seen m
    rw [heq]
    rfl
  reports seen m := by
    obtain ⟨before, after, hbefore, hafter, heq⟩ := p.exists_checkMethod_eq seen m
    have hmethods : ((repeats seen.methods (p.methodEntries m)).map sayMethod).filter
        (fun t => t.redeclaredType?.isSome) = [] := by
      rw [List.filter_map, List.map_eq_nil_iff, List.filter_eq_nil_iff]
      exact fun r _ => Bool.false_ne_true
    rw [heq, List.filter_append, List.filter_append, hmethods,
      filter_eq_nil_of_redeclaresNothing not_isSome_redeclaredType? hbefore,
      filter_eq_nil_of_redeclaresNothing not_isSome_redeclaredType? hafter]
    rfl

/-- A type neither enters nor reports a method. -/
private theorem records_methods_checkType :
    Records Declared.methods (fun t => t.redeclaredMethod?.isSome) sayMethod (fun _ => [])
      p.checkType where
  enters seen d := by
    rw [checkType]
    cases seen.types.lookup d.name <;> rfl
  reports seen d := by
    rw [checkType]
    cases seen.types.lookup d.name with
    | some previous => rfl
    | none =>
      exact filter_eq_nil_of_redeclaresNothing not_isSome_redeclaredMethod?
        ((p.declScope d).redeclaresNothing_problems d.spec.type)

/-- A method is entered under its receiver and its name, and reported if these are taken. -/
private theorem records_methods_checkMethod :
    Records Declared.methods (fun t => t.redeclaredMethod?.isSome) sayMethod p.methodEntries
      p.checkMethod where
  enters seen m := by
    obtain ⟨before, after, -, -, heq⟩ := p.exists_checkMethod_eq seen m
    rw [heq]
  reports seen m := by
    obtain ⟨before, after, hbefore, hafter, heq⟩ := p.exists_checkMethod_eq seen m
    have hmethods : ((repeats seen.methods (p.methodEntries m)).map sayMethod).filter
        (fun t => t.redeclaredMethod?.isSome) =
          (repeats seen.methods (p.methodEntries m)).map sayMethod := by
      rw [List.filter_eq_self, List.forall_mem_map]
      exact fun r _ => rfl
    rw [heq, List.filter_append, List.filter_append, hmethods,
      filter_eq_nil_of_redeclaresNothing not_isSome_redeclaredMethod? hbefore,
      filter_eq_nil_of_redeclaresNothing not_isSome_redeclaredMethod? hafter, List.nil_append,
      List.append_nil]

end Kinds

/-! ### What a check reports of a package -/

/-- A check enters the declared types of a file in their order. -/
theorem records_types_checkFile (p : Package) :
    Records Declared.types (fun t => t.redeclaredType?.isSome) sayType
      (fun file : SourceFile => (file.types.map fun spec => (⟨file, spec⟩ : TypeDecl)).map fun d =>
        (d.name, d.location)) p.checkFile := by
  convert p.records_types_checkType.checkFile p.records_types_checkMethod using 2 with file
  rw [← List.map_eq_flatMap, List.flatMap_eq_nil_iff.mpr fun _ _ => rfl, List.append_nil]

/-- A check enters the methods of a file in their order. -/
theorem records_methods_checkFile (p : Package) :
    Records Declared.methods (fun t => t.redeclaredMethod?.isSome) sayMethod
      (fun file : SourceFile => (file.funcs.map fun decl => (⟨file, decl⟩ : MethodDecl)).flatMap
        p.methodEntries) p.checkFile := by
  convert p.records_methods_checkType.checkFile p.records_methods_checkMethod using 2 with file
  rw [List.flatMap_eq_nil_iff.mpr fun _ _ => rfl, List.nil_append]

/-- The check reports the types that are passed over. -/
private theorem filter_redeclaredType?_check (p : Package) :
    p.check.filter (fun t => t.redeclaredType?.isSome) =
      (repeats [] (p.typeDecls.map fun d => (d.name, d.location))).map sayType := by
  rw [typeDecls, List.map_flatMap]
  exact p.records_types_checkFile.checkAll.reports ⟨[], []⟩ p.files

/-- The check reports the methods that are passed over. -/
private theorem filter_redeclaredMethod?_check (p : Package) :
    p.check.filter (fun t => t.redeclaredMethod?.isSome) =
      (repeats [] (p.methodDecls.flatMap p.methodEntries)).map sayMethod := by
  rw [methodDecls, List.flatMap_assoc]
  exact p.records_methods_checkFile.checkAll.reports ⟨[], []⟩ p.files

/-- Of the types of a name all but the first are reported, each with the location of the first. -/
theorem filter_redeclaredType?_eq (p : Package) (name : String) :
    p.check.filter (fun t => t.redeclaredType? == some name) =
      afterFirst (fun first d => ⟨d.location, .typeRedeclared name first.location⟩)
        (p.typeDecls.filter fun d => d.name == name) := by
  have hkind : p.check.filter (fun t => t.redeclaredType? == some name) =
      (p.check.filter fun t => t.redeclaredType?.isSome).filter
        fun t => t.redeclaredType? == some name := by
    rw [List.filter_filter]
    refine List.filter_congr fun t _ => ?_
    cases t.redeclaredType? <;> simp
  have hname : (fun t : TypeProblem => t.redeclaredType? == some name) ∘ sayType =
      fun r => r.1.1 == name := by
    funext r
    simp [sayType, TypeProblem.redeclaredType?]
  have hrepeats := filter_repeats [] (p.typeDecls.map fun d => (d.name, d.location)) name
  rw [List.lookup_nil, List.filter_map] at hrepeats
  rw [hkind, filter_redeclaredType?_check, List.filter_map, hname, hrepeats, afterFirst_map,
    map_afterFirst]
  refine afterFirst_congr fun first d hd => ?_
  have hname : d.name = name := by simpa using (List.mem_filter.mp hd).2
  rw [sayType, hname]

/-- Of the methods of a receiver and a name all but the first are reported, each with the location
of the first. -/
theorem filter_redeclaredMethod?_eq (p : Package) (key : String × String) :
    p.check.filter (fun t => t.redeclaredMethod? == some key) =
      afterFirst (fun first m => ⟨m.location, .methodRedeclared key.1 key.2 first.location⟩)
        (p.methodDecls.filter fun m => p.methodKey? m == some key) := by
  have hkind : p.check.filter (fun t => t.redeclaredMethod? == some key) =
      (p.check.filter fun t => t.redeclaredMethod?.isSome).filter
        fun t => t.redeclaredMethod? == some key := by
    rw [List.filter_filter]
    refine List.filter_congr fun t _ => ?_
    cases t.redeclaredMethod? <;> simp
  have hname : (fun t : TypeProblem => t.redeclaredMethod? == some key) ∘ sayMethod =
      fun r => r.1.1 == key := by
    funext r
    simp [sayMethod, TypeProblem.redeclaredMethod?]
  -- the declarations of one key are left of the entries, since every method gives one entry or none
  have hentries : (p.methodDecls.flatMap p.methodEntries).filter (fun e => e.1 == key) =
      (p.methodDecls.filter fun m => p.methodKey? m == some key).map
        fun m => (key, m.location) := by
    induction p.methodDecls with
    | nil => rfl
    | cons m ms ih =>
      rw [List.flatMap_cons, List.filter_append, ih, List.filter_cons, methodEntries]
      cases p.methodKey? m with
      | none => rfl
      | some k =>
        by_cases hk : k = key
        · simp [hk]
        · simp [hk]
  have hrepeats := filter_repeats [] (p.methodDecls.flatMap p.methodEntries) key
  rw [List.lookup_nil, hentries] at hrepeats
  rw [hkind, filter_redeclaredMethod?_check, List.filter_map, hname, hrepeats, afterFirst_map,
    map_afterFirst]
  rfl

/-! ### What a check accepts -/

/-- The entry of a declared type. -/
def placeEntry (q : (ℕ × ℕ) × TypeDecl) : String × Location := (q.2.name, q.2.location)

/-- A type is accepted if its name is not taken. -/
private theorem accepts_eq (p : Package) (seen : Declared) (d : TypeDecl) :
    p.accepts (seen, d) = (seen.types.lookup d.name).isNone := by
  rw [accepts, checkType]
  cases seen.types.lookup d.name with
  | some previous => rfl
  | none =>
    simp only [Option.isNone_none, List.all_eq_true, Option.isNone_iff_eq_none]
    exact fun t ht => ((p.declScope d).redeclaresNothing_problems d.spec.type t ht).1

/-- The types of a file that are accepted are those whose entries are not passed over. -/
theorem accepted_types_eq (p : Package) (i : ℕ) (seen : Declared) (ds : List TypeDecl) (j : ℕ) :
    ((turns p.checkType seen ds).zipIdx j).filterMap
        (fun d => if p.accepts d.1 then some ((i, d.2), d.1.2) else none) =
      entered placeEntry seen.types ((ds.zipIdx j).map fun d => ((i, d.2), d.1)) := by
  induction ds generalizing seen j with
  | nil => rfl
  | cons d ds ih =>
    -- the table that the next types meet is the one that `entered` goes on with
    have htable : (p.checkType seen d).1.types = enter seen.types (d.name, d.location) :=
      p.records_types_checkType.enters seen d
    rw [turns, List.zipIdx_cons, List.filterMap_cons, accepts_eq, ih, htable, List.zipIdx_cons,
      List.map_cons, entered, placeEntry]
    cases seen.types.lookup d.name <;> rfl

/-- File after file, the types are accepted whose entries are not passed over. -/
private theorem accepted_files_eq (p : Package) (seen : Declared) (files : List SourceFile)
    (i : ℕ) : (((turns p.checkFile seen files).zipIdx i).flatMap fun f =>
        (turns p.checkType f.1.1 (f.1.2.types.map fun spec => ⟨f.1.2, spec⟩)).zipIdx.filterMap
          fun d => if p.accepts d.1 then some ((f.2, d.2), d.1.2) else none) =
      entered placeEntry seen.types ((files.zipIdx i).flatMap fun f =>
        f.1.types.zipIdx.map fun s => ((f.2, s.2), ⟨f.1, s.1⟩)) := by
  induction files generalizing seen i with
  | nil => rfl
  | cons file files ih =>
    -- the table that a file leaves is the one that the next file starts with
    have htable := p.records_types_checkFile.enters seen file
    have hfile : ((file.types.map fun spec => (⟨file, spec⟩ : TypeDecl)).zipIdx.map fun d =>
        ((i, d.2), d.1)) = file.types.zipIdx.map fun s => ((i, s.2), ⟨file, s.1⟩) := by
      rw [List.zipIdx_map, List.map_map]
      rfl
    have hentries : (file.types.zipIdx.map fun s =>
        (((i, s.2), ⟨file, s.1⟩) : (ℕ × ℕ) × TypeDecl)).map placeEntry =
          (file.types.map fun spec => (⟨file, spec⟩ : TypeDecl)).map fun d =>
            (d.name, d.location) := by
      rw [List.map_map, List.map_map]
      exact map_fst_zipIdx (fun spec : TypeSpec => (spec.name.name, spec.name.location)) _ 0
    rw [turns, List.zipIdx_cons, List.flatMap_cons, ih, accepted_types_eq, hfile, htable,
      List.zipIdx_cons, List.flatMap_cons, entered_append, hentries]

/-- The places that are accepted are those that come into the table. -/
private theorem acceptedPlaces_eq (p : Package) :
    p.acceptedPlaces = entered placeEntry [] p.places :=
  p.accepted_files_eq ⟨[], []⟩ p.files 0

/-- Of a name the first place is accepted, and no other. -/
private theorem filter_acceptedPlaces (p : Package) (name : String) :
    p.acceptedPlaces.filter (fun q => q.2.name == name) = (p.firstPlace? name).toList := by
  rw [acceptedPlaces_eq]
  exact filter_entered placeEntry [] p.places name

/-- **Of several declarations the first one counts**, which stands before all others of its name in
the order of the files and then of the text. Every pass over the declarations picks this one: the
table of places, the index, and the check. The check reports all the others of its name, each with
the location of the first one, and of the methods with the same receiver and name it reports all but
the first in the same way. -/
theorem first_declarations_count (p : Package) :
    (∀ name q, p.firstPlace? name = some q → ∀ r ∈ p.places, r.2.name = name →
      r = q ∨ q.1.1 < r.1.1 ∨ q.1.1 = r.1.1 ∧ q.1.2 < r.1.2) ∧
    (∀ name,
      p.typeSpec? name = (p.firstPlace? name).map (fun q => (q.1.1, q.2.spec)) ∧
      p.indexTable.lookup name = (p.firstPlace? name).map (fun q => (q.1.1, q.2.spec)) ∧
      p.typeDecl? name = (p.firstPlace? name).map Prod.snd ∧
      p.acceptedPlaces.filter (fun q => q.2.name == name) = (p.firstPlace? name).toList) ∧
    (∀ name, p.check.filter (fun t => t.redeclaredType? == some name) =
        afterFirst (fun first d => ⟨d.location, .typeRedeclared name first.location⟩)
          (p.typeDecls.filter fun d => d.name == name) ∧
      (p.check.filter fun t => t.redeclaredType? == some name).length =
        (p.typeDecls.filter fun d => d.name == name).length - 1) ∧
    ∀ key, p.check.filter (fun t => t.redeclaredMethod? == some key) =
        afterFirst (fun first m => ⟨m.location, .methodRedeclared key.1 key.2 first.location⟩)
          (p.methodDecls.filter fun m => p.methodKey? m == some key) ∧
      (p.check.filter fun t => t.redeclaredMethod? == some key).length =
        (p.methodDecls.filter fun m => p.methodKey? m == some key).length - 1 := by
  refine ⟨fun name q hq r => before_of_firstPlace? hq, fun name => ?_, fun name => ?_,
    fun key => ?_⟩
  · exact ⟨p.typeSpec?_eq_firstPlace? name, p.lookup_indexTable name,
      p.typeDecl?_eq_firstPlace? name, p.filter_acceptedPlaces name⟩
  · have h := p.filter_redeclaredType?_eq name
    exact ⟨h, by rw [h, length_afterFirst]⟩
  · have h := p.filter_redeclaredMethod?_eq key
    exact ⟨h, by rw [h, length_afterFirst]⟩

end Package

end GoPages
