import GoPages.Proofs.Event.Reached
import GoPages.Proofs.HostType.Denoted
import GoPages.Proofs.HostType.Texts
import GoPages.Proofs.Package.Lines
import GoPages.Setting

/-!
# When nothing is found about a payload

A walk over a payload looks into one type for each text. Types with the same text have alike fields
(`Payload.alike_of_render_eq`), unless one of them is a type parameter or a predeclared type with
the name of a declared type. And a declared type that stands for a pointer is not looked into. If
neither comes up (`Payload.HidesNothing`), then nothing is found about a payload exactly if all of
it is in order (`Payload.check_eq_nil_iff_isOrderly`). Otherwise a struct that is not in order can
go unnoticed (`Payload.not_forall_check_eq_nil_iff`).
-/

namespace GoPages

namespace Package

/-- The names of the declared types. -/
def declaredNames (p : Package) : List String := p.typeDecls.map TypeDecl.name

/-- Types of one name stand for the same type, whatever their type arguments are. -/
theorem underlying_eq_of_localName {p : Package} {t u : HostType} {name : String}
    (ht : t.localName = some name) (hu : u.localName = some name) :
    p.underlying t = p.underlying u := by
  rw [underlying, underlying, underlyingFrom, underlyingFrom, ht, hu]

end Package

namespace Payload

variable {p : Package} {root t u : HostType} {sources : List Source}

/-- What a written type leads to is written, if the declarations of the package are. -/
private theorem isWritten_of_mem_next (hload : Package.load sources = .ok p) (h : p.IsWellSpelled)
    (ht : t.IsWritten) (hu : u ∈ next p t) : u.IsWritten := by
  rcases mem_next_cases hu with rfl | ⟨fields, hmem, hfields⟩
  · cases ht with
    | pointer helem => exact helem
  · obtain ⟨f, hf, rfl⟩ := List.mem_map.mp hmem
    have hstruct : (HostType.struct fields).IsWritten := by
      rcases hfields with rfl | ⟨d, hd, hresolve⟩
      · exact ht
      · exact hresolve ▸ Package.isWritten_declared hload h hd
    exact (HostType.isWritten_struct.mp hstruct f hf).type

/-- So is whatever can be reached from it. -/
private theorem isWritten_of_reaches (hload : Package.load sources = .ok p) (h : p.IsWellSpelled)
    (hroot : root.IsWritten) (hreach : Reaches p root t) : t.IsWritten := by
  induction hreach with
  | refl => exact hroot
  | tail _ hstep ih => exact isWritten_of_mem_next hload h ih hstep

/-! ### Types with the same text -/

private theorem eq_pointer_of_kind {names : List String} (h : t.kind names = .pointer) :
    ∃ elem, t = .pointer elem := by
  cases t with
  | pointer elem => exact ⟨elem, rfl⟩
  | named path name args =>
    rw [HostType.kind] at h
    split at h <;> cases h
  | _ => cases h

private theorem eq_struct_of_kind {names : List String} (h : t.kind names = .struct) :
    ∃ fields, t = .struct fields := by
  cases t with
  | struct fields => exact ⟨fields, rfl⟩
  | named path name args =>
    rw [HostType.kind] at h
    split at h <;> cases h
  | _ => cases h

/-- The fields of a declared type depend on its name alone. -/
theorem fields_of_declared {names : List String} {name : String}
    (h : t.kind names = .declared name) :
    fields p t = (p.underlying (.named "" name [])).structFields ∧
      next p t = (fields p t).map (·.type) := by
  cases t with
  | named path name' args =>
    rw [HostType.kind] at h
    split at h
    · next hlocal =>
      obtain rfl := HostType.Kind.declared.inj h
      refine ⟨congrArg HostType.structFields (Package.underlying_eq_of_localName ?_ rfl), rfl⟩
      rw [HostType.localName, if_pos hlocal.1]
    · cases h
  | _ => cases h

/-- A type that is no pointer, no struct type and no declared type leads nowhere. -/
theorem fields_of_other (h : t.kind p.declaredNames = .other) :
    fields p t = [] ∧ next p t = [] := by
  cases t with
  | named path name args =>
    have hnil : fields p (.named path name args) = [] := by
      rw [fields, Package.underlying, Package.underlyingFrom]
      split
      · rfl
      · next hlocal =>
        obtain ⟨rfl, hsame⟩ := Option.ite_none_right_eq_some.mp hlocal
        obtain rfl := Option.some.inj hsame
        split
        · rfl
        · next hsome =>
          -- a name that is found is that of a declared type
          have hname := List.find?_some hsome
          have hmem : name ∈ p.declaredNames :=
            List.mem_map.mpr ⟨_, List.mem_of_find?_eq_some hsome, by simpa using hname⟩
          rw [HostType.kind, if_pos ⟨rfl, hmem⟩] at h
          cases h
    exact ⟨hnil, congrArg (List.map StructFieldOf.type) hnil⟩
  | pointer => cases h
  | struct => cases h
  | _ => exact ⟨rfl, rfl⟩

/-- Types with the same text have alike fields, unless one of them only has the name of a declared
type. -/
theorem alike_of_render_eq (hnames : ∀ name ∈ p.declaredNames, isWord name) (ht : t.IsWritten)
    (htnew : ∀ name, t.otherName = some name → name ∉ p.declaredNames) (hu : u.IsWritten)
    (hunew : ∀ name, u.otherName = some name → name ∉ p.declaredNames)
    (h : t.render = u.render) : (fields p t).map isOrderly = (fields p u).map isOrderly ∧
      (next p t).map HostType.render = (next p u).map HostType.render := by
  -- the text tells the kind of a type, so both types are taken apart alike
  have hkind := HostType.kind_eq_of_render_eq hnames ht htnew hu hunew h
  cases hk : t.kind p.declaredNames with
  | pointer =>
    obtain ⟨a, rfl⟩ := eq_pointer_of_kind hk
    obtain ⟨b, rfl⟩ := eq_pointer_of_kind (hkind.symm.trans hk)
    refine ⟨rfl, ?_⟩
    rw [← String.toList_inj, HostType.render, HostType.render, String.toList_append,
      String.toList_append, List.append_right_inj, String.toList_inj] at h
    rw [next, next, List.map_singleton, List.map_singleton, h]
  | struct =>
    obtain ⟨as, rfl⟩ := eq_struct_of_kind hk
    obtain ⟨bs, rfl⟩ := eq_struct_of_kind (hkind.symm.trans hk)
    have hshown := HostType.shown_eq_of_render_eq ht hu h
    have horderly (fs : List StructField) : fs.map isOrderly =
        (fs.map HostType.shown).map fun f => f.1 && (StructTag.lookup f.2.1 "json").isSome := by
      rw [List.map_map]
      rfl
    have htypes (fs : List StructField) : (fs.map (·.type)).map HostType.render =
        (fs.map HostType.shown).map fun f => f.2.2 := by
      rw [List.map_map, List.map_map]
      rfl
    refine ⟨(horderly as).trans ?_, (htypes as).trans ?_⟩
    · rw [hshown]
      exact (horderly bs).symm
    · rw [hshown]
      exact (htypes bs).symm
  | declared name =>
    obtain ⟨hfields, hnext⟩ := fields_of_declared (p := p) hk
    obtain ⟨hfields', hnext'⟩ := fields_of_declared (p := p) (hkind.symm.trans hk)
    rw [hnext, hnext', hfields, hfields']
    exact ⟨rfl, rfl⟩
  | other =>
    obtain ⟨hfields, hnext⟩ := fields_of_other hk
    obtain ⟨hfields', hnext'⟩ := fields_of_other (hkind.symm.trans hk)
    rw [hfields, hfields', hnext, hnext']
    exact ⟨rfl, rfl⟩

/-! ### Payloads in which nothing is hidden -/

/-- No type that can be reached hides another one from a walk: type parameters and predeclared types
do not have the names of declared types, and declared types do not stand for pointers. -/
structure HidesNothing (p : Package) (root : HostType) : Prop where
  names : ∀ t, Relation.ReflTransGen (Leads p) root t →
    ∀ name, t.otherName = some name → name ∉ p.declaredNames
  pointers : ∀ t, Relation.ReflTransGen (Leads p) root t → t.localName.isSome →
    ∀ elem, p.underlying t ≠ .pointer elem

/-- Does the type stand for a pointer? -/
def standsForPointer (p : Package) (t : HostType) : Bool :=
  match p.underlying t with
  | .pointer _ => true
  | _ => false

/-- Does no type that can come up hide another one? -/
def hidesNothing (p : Package) (root : HostType) : Bool :=
  (candidates p root).all fun t =>
    (t.otherName.all fun name => !p.declaredNames.contains name) &&
      (t.localName.isNone || !standsForPointer p t)

/-- The test on all candidates says that nothing is hidden. -/
private theorem HidesNothing.of_hidesNothing (h : hidesNothing p root) : HidesNothing p root := by
  -- whatever the payload leads to is one of the candidates, which are finitely many
  have hall {t : HostType} (hlead : Relation.ReflTransGen (Leads p) root t) (hne : t ≠ .invalid) :
      (∀ name, t.otherName = some name → name ∉ p.declaredNames) ∧
        (t.localName.isNone ∨ standsForPointer p t = false) := by
    have ht := List.all_eq_true.mp h t ((mem_candidates_of_leads hlead).resolve_right hne)
    simpa [Option.all_eq_true] using ht
  refine ⟨fun t hlead name hname => ?_, fun t hlead hname elem hpointer => ?_⟩
  · refine (hall hlead ?_).1 name hname
    rintro rfl
    cases hname
  · have hne : t ≠ .invalid := by
      rintro rfl
      cases hname
    rcases (hall hlead hne).2 with hnone | hfalse
    · rw [Option.isNone_iff_eq_none.mp hnone] at hname
      cases hname
    · rw [standsForPointer, hpointer] at hfalse
      cases hfalse

/-- **When nothing is found about a payload.** In a package whose types are well spelled, nothing is
found about a declared type that hides nothing exactly if the fields of all structs that can be
reached from it are in order. -/
theorem check_eq_nil_iff_isOrderly (hload : Package.load sources = .ok p) (h : p.IsWellSpelled)
    {d : TypeDecl} (hd : d ∈ p.typeDecls) (hhides : HidesNothing p (.named "" d.name []))
    (event : String) :
    check p event (.named "" d.name []) = [] ↔ IsOrderly p (.named "" d.name []) := by
  have hwords : ∀ name ∈ p.declaredNames, isWord name :=
    List.forall_mem_map.mpr fun d hd => (Package.isWritten_of_mem_typeDecls hload hd).name.isWord
  have hroot : (HostType.named "" d.name []).IsWritten :=
    .named (.inl rfl) (hwords _ (List.mem_map_of_mem hd)) (List.forall_mem_nil _)
  refine ⟨isOrderly_of_check_eq_nil ⟨fun t u ht hu => ?_, fun t ht => ?_⟩,
    check_eq_nil_of_isOrderly event⟩
  · exact alike_of_render_eq hwords (isWritten_of_reaches hload h hroot ht)
      (hhides.names t (leads_of_reaches ht)) (isWritten_of_reaches hload h hroot hu)
      (hhides.names u (leads_of_reaches hu))
  · exact hhides.pointers t (leads_of_reaches ht)

/-- An event with generic, recursive and unnamed types in it. -/
def nestedPayload : List (String × List String) :=
  [("app.go",
    ["package app",
     "type Person struct\x7b Name string `json:\"name\"`; Next *Person `json:\"next\"` \x7d",
     "type Box[T any] struct\x7b V T `json:\"v\"` \x7d",
     "// EventSaved is \"saved\"",
     "type EventSaved struct\x7b",
     "A *Box[int] `json:\"a\"`",
     "B struct\x7b By **Person `json:\"by\"`; IDs [2]byte `json:\"ids\"` \x7d `json:\"b\"`",
     "\x7d"])]

set_option maxRecDepth 100000 in
/-- The payload of nested types hides nothing, and all of it is in order. -/
theorem isOrderly_nestedPayload : ∃ p, Package.load (sourcesOf nestedPayload) = .ok p ∧
    ∃ d ∈ p.typeDecls, d.name = "EventSaved" ∧ p.IsWellSpelled ∧
      HidesNothing p (.named "" d.name []) ∧ IsOrderly p (.named "" d.name []) := by
  have hall : ((Package.load (sourcesOf nestedPayload)).toOption.any fun p =>
      p.isWellSpelled && p.typeDecls.any fun d =>
        d.name == "EventSaved" && hidesNothing p (.named "" d.name []) &&
          (walkWithin p d.name 20 ((candidates p (.named "" d.name [])).map HostType.render)
            [.type (.named "" d.name [])]).any List.isEmpty) = true := by
    rw [Package.load_sourcesOf]
    decide +kernel
  cases hload : Package.load (sourcesOf nestedPayload) with
  | error e =>
    rw [hload] at hall
    cases hall
  | ok p =>
    rw [hload, Except.toOption, Option.any_some] at hall
    simp only [List.any_eq_true, Bool.and_eq_true, Option.any_eq_true, List.isEmpty_iff,
      beq_iff_eq] at hall
    obtain ⟨hspelled, d, hd, ⟨hname, hhides⟩, es, hwalk, rfl⟩ := hall
    have hp : p.IsWellSpelled := .of_isWellSpelled hspelled
    have hnothing : HidesNothing p (.named "" d.name []) := .of_hidesNothing hhides
    refine ⟨p, rfl, d, hd, hname, hp, hnothing, ?_⟩
    exact (check_eq_nil_iff_isOrderly hload hp hd hnothing d.name).mp (walk_of_walkWithin hwalk)

/-! ### A type that is taken for another one -/

/-- An event with fields of two types with the same text: a type parameter and a declared type. -/
def shadowedItem : List (String × List String) :=
  [("app.go",
    ["package app",
     "import \"net/http\"",
     "import \"github.com/a-h/templ\"",
     "type App struct\x7b\x7d",
     "type Item struct\x7b hidden int \x7d",
     "type Box[Item any] struct\x7b V Item `json:\"v\"` \x7d",
     "// EventSaved is \"saved\"",
     "type EventSaved struct\x7b A Box[int] `json:\"a\"`; B Item `json:\"b\"` \x7d",
     "// PageIndex is /",
     "type PageIndex struct\x7b App *App \x7d",
     "func (PageIndex) GET(r *http.Request) (body templ.Component) \x7b\x7d"])]

/-- The fields of a declared type that has a field of another declared type are not in order if
those of the other one are not. -/
theorem not_isOrderly {p : Package} {root : HostType} (hroot : root.localName.isSome)
    {f g : StructField} (hf : f ∈ (p.underlying root).structFields)
    (hname : f.type.localName.isSome) (hg : g ∈ (p.underlying f.type).structFields)
    (hnot : isOrderly g = false) :
    ¬ IsOrderly p root := by
  have hstruct {t : HostType} {f : StructField} (ht : t.localName.isSome)
      (hf : f ∈ (p.underlying t).structFields) :
      Relation.ReflTransGen (Leads p) t (.struct (p.underlying t).structFields) := by
    obtain ⟨name, hname⟩ := Option.isSome_iff_exists.mp ht
    rcases structFields_eq_nil_or (p.underlying t) with hnil | heq
    · rw [hnil] at hf
      cases hf
    · exact heq ▸ .single (.declared hname)
  intro h
  have hall := h _ (((hstruct hroot hf).tail (.field hf)).trans (hstruct hname hg)) g hg
  rw [hnot] at hall
  cases hall

set_option maxRecDepth 100000 in
/-- Nothing is found about the payload, although a struct in it is not in order. -/
private theorem exists_check_shadowedItem :
    ∃ p, Package.load (sourcesOf shadowedItem) = .ok p ∧
      ∃ d ∈ (⟨p, .standard⟩ : Setting).eventTypes,
        check p d.name (.named "" d.name []) = [] ∧ ¬ IsOrderly p (.named "" d.name []) := by
  have hall : ((Package.load (sourcesOf shadowedItem)).toOption.any fun p =>
      (⟨p, .standard⟩ : Setting).eventTypes.any fun d =>
        ((walkWithin p d.name 20 ((candidates p (.named "" d.name [])).map HostType.render)
          [.type (.named "" d.name [])]).any List.isEmpty) &&
        (p.underlying (.named "" d.name [])).structFields.any fun f => f.type.localName.isSome &&
          (p.underlying f.type).structFields.any fun g => !isOrderly g) = true := by
    rw [Package.load_sourcesOf]
    decide +kernel
  obtain ⟨p, hload, hp⟩ := Package.exists_load_of_any hall
  simp only [List.any_eq_true, Bool.and_eq_true, Option.any_eq_true, List.isEmpty_iff,
    Bool.not_eq_true'] at hp
  obtain ⟨d, hd, ⟨es, hwalk, rfl⟩, f, hf, hname, g, hg, hnot⟩ := hp
  exact ⟨p, hload, d, hd, walk_of_walkWithin hwalk, not_isOrderly rfl hf hname hg hnot⟩

/-- Nothing need be found about an event with a struct that is not in order. -/
theorem not_forall_check_eq_nil_iff :
    ¬ ∀ (sources : List Source) (p : Package), Package.load sources = .ok p →
      ∀ d ∈ (⟨p, .standard⟩ : Setting).eventTypes,
        check p d.name (.named "" d.name []) = [] ↔ IsOrderly p (.named "" d.name []) := by
  intro hall
  obtain ⟨p, hload, d, hd, hcheck, hnot⟩ := exists_check_shadowedItem
  exact hnot ((hall _ p hload d hd).mp hcheck)

end Payload

end GoPages
