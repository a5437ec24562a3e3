import GoPages.Proofs.Analysis.Owners
import GoPages.Proofs.Package.Checked
import GoPages.Proofs.Package.Lines

/-!
# What pages embed

An embedding is known by the last name of its type, and the type itself is not looked up.

* `Scope.localName_stripPointer_resolve_iff`: a type whose last name is that of a declared type
  denotes this type, or a pointer to it, unless it is written with more pointers or with the name of
  another package.
* `Setting.mem_embeds_iff`: what is recorded as embedded are the embedded fields with the name of an
  abstract page.
* `Analysis.denotes_iff_of_mem_embeds`: the type of such a field denotes this abstract page exactly
  if it is not written with another package, nor with several pointers.
  `Analysis.not_forall_denotes` is an application where it is: a page embeds a type of another
  package, and it gets the handlers of an abstract page of the same name.
-/

namespace GoPages

/-! ### Embedded types -/

namespace TypeExpr

/-- The name of a package that the name of an embedded type is written with. -/
def qualifier? : TypeExpr → Option Ident
  | qualified package _ => some package
  | generic base _ => base.qualifier?
  | pointer _ elem => elem.qualifier?
  | _ => none

/-- The number of pointers that the name of an embedded type is written with. -/
def pointers : TypeExpr → Nat
  | generic base _ => base.pointers
  | pointer _ elem => elem.pointers + 1
  | _ => 0

end TypeExpr

namespace Scope

/-- The names of packages that a type is written with stand for the package itself. -/
def QualifiesLocally (s : Scope) (e : TypeExpr) : Prop :=
  ∀ package ∈ e.qualifier?, s.importPath? package.name = some ""

variable {s : Scope} {n : String}

/-- A type expression with the last name of a declared type denotes this type if it is written
without a pointer and without the name of another package. -/
private theorem localName_resolve_iff (hparams : n ∉ s.typeParams) (hlocal : n ∈ s.localTypes) :
    ∀ e : TypeExpr, e.embeddedName.map Ident.name = some n →
      ((s.resolve e).localName = some n ↔ e.pointers = 0 ∧ s.QualifiesLocally e)
  | .ident id, h => by
    obtain rfl : id.name = n := by simpa [TypeExpr.embeddedName] using h
    simp [resolve, typeOfName?, hparams, hlocal, HostType.localName, TypeExpr.pointers,
      QualifiesLocally, TypeExpr.qualifier?]
  | .qualified package id, h => by
    obtain rfl : id.name = n := by simpa [TypeExpr.embeddedName] using h
    cases hpath : s.importPath? package.name <;>
      simp [resolve, hpath, HostType.localName, TypeExpr.pointers, QualifiesLocally,
        TypeExpr.qualifier?]
  | .generic base args, h => by
    rw [resolve, localName_instantiate]
    exact localName_resolve_iff hparams hlocal base h
  | .pointer _ elem, h => by simp [resolve, HostType.localName, TypeExpr.pointers]

/-- A type with the last name of a declared type denotes it or a pointer to it, unless it is written
with several pointers or with another package. -/
theorem localName_stripPointer_resolve_iff (hparams : n ∉ s.typeParams)
    (hlocal : n ∈ s.localTypes) :
    ∀ e : TypeExpr, e.embeddedName.map Ident.name = some n →
      ((s.resolve e).stripPointer.localName = some n ↔ e.pointers ≤ 1 ∧ s.QualifiesLocally e)
  | .ident id, h => by
    obtain rfl : id.name = n := by simpa [TypeExpr.embeddedName] using h
    simp [resolve, typeOfName?, hparams, hlocal, HostType.stripPointer, HostType.localName,
      TypeExpr.pointers, QualifiesLocally, TypeExpr.qualifier?]
  | .qualified package id, h => by
    obtain rfl : id.name = n := by simpa [TypeExpr.embeddedName] using h
    cases hpath : s.importPath? package.name <;>
      simp [resolve, hpath, HostType.stripPointer, HostType.localName, TypeExpr.pointers,
        QualifiesLocally, TypeExpr.qualifier?]
  | .generic base args, h => by
    rw [resolve, localName_stripPointer_instantiate]
    exact localName_stripPointer_resolve_iff hparams hlocal base h
  | .pointer _ elem, h => by
    -- one pointer is taken off, so that none may be left
    have hpointers : elem.pointers = 0 ↔ elem.pointers + 1 ≤ 1 := by omega
    rw [resolve, HostType.stripPointer, localName_resolve_iff hparams hlocal elem h]
    exact and_congr hpointers .rfl

end Scope

/-! ### References to embedded pages -/

/-- The references of an owner to what it embeds. -/
def Owner.embeds : Owner → List EmbedRef
  | page p => p.embeds
  | abstractPage p => p.embeds

/-- An embedded field is where the reference says. -/
def EmbedRef.IsAt (e : EmbedRef) (f : FieldDecl) : Prop :=
  f.isEmbedded ∧ f.type.location = e.location

/-- The reference is read from the field: its place and its name are those of the field. -/
def EmbedRef.IsReadFrom (e : EmbedRef) (f : FieldDecl) : Prop :=
  e.IsAt f ∧ f.type.embeddedName.map Ident.name = some e.typeName

/-- In its file the type of the field, or what it is a pointer to, is the type of this name that the
package declares. -/
def Package.Denotes (p : Package) (file : SourceFile) (f : FieldDecl) (name : String) : Prop :=
  ((p.scope file).resolve (FieldOf.type f)).stripPointer.localName = some name

namespace Setting

variable {s : Setting}

/-- What is recorded as embedded are the embedded fields that end in the name of an abstract page.
-/
theorem mem_embeds_iff {fields : List FieldDecl} {e : EmbedRef} :
    e ∈ s.embeds fields ↔ s.isAbstractName e.typeName ∧ ∃ f ∈ fields, e.IsReadFrom f := by
  rw [embeds, List.mem_filter, and_comm, embeddings, List.mem_filterMap]
  refine and_congr_right fun _ => ⟨?_, ?_⟩
  · rintro ⟨f, hf, he⟩
    obtain ⟨hf, hembedded⟩ := List.mem_filter.mp hf
    obtain ⟨id, hid, rfl⟩ := Option.map_eq_some_iff.mp he
    exact ⟨f, hf, ⟨hembedded, rfl⟩, by rw [hid, Option.map_some]⟩
  · rintro ⟨f, hf, ⟨hembedded, hplace⟩, hname⟩
    obtain ⟨id, hid, hname⟩ := Option.map_eq_some_iff.mp hname
    refine ⟨f, List.mem_filter.mpr ⟨hf, hembedded⟩, ?_⟩
    rw [hid, Option.map_some, hplace, hname]

/-- Pages and abstract pages are struct types. -/
theorem structFields?_of_typeRole {d : TypeDecl} {fields : List FieldDecl}
    (h : s.typeRole d = .page fields ∨ s.typeRole d = .abstractPage fields) :
    d.structFields? = some fields := by
  rw [typeRole] at h
  split at h
  · simp at h
  · simp at h
  · split at h
    · simp at h
    · split at h
      · simp at h
      · next others hothers =>
        rw [hothers]
        split at h
        · simpa using h
        · split at h
          · simpa using h
          · simp at h

/-- What an owner embeds is read from the fields of its declaration. -/
theorem exists_fields_of_declares {o : Owner} (h : s.declares o) :
    ∃ d fields, s.package.typeDecl? o.typeName = some d ∧ d.structFields? = some fields ∧
      o.embeds = s.embeds fields := by
  cases o with
  | page p =>
    obtain ⟨d, fields, hd, hrole, rfl⟩ := exists_typeRole_of_mem_pages h
    exact ⟨d, fields, hd, structFields?_of_typeRole (.inl hrole), rfl⟩
  | abstractPage p =>
    obtain ⟨d, fields, hd, hrole, rfl⟩ := exists_typeRole_of_mem_abstractPages h
    exact ⟨d, fields, hd, structFields?_of_typeRole (.inr hrole), rfl⟩

end Setting

/-! ### What is denoted -/

private theorem Owner.embeds_withHandlers (o : Owner) (hs : OwnHandlers) :
    (o.withHandlers hs).embeds = o.embeds := by
  cases o <;> rfl

/-- The scope of a file has the declared types. -/
theorem Package.mem_localTypes_scope {p : Package} {name : String} {d : TypeDecl}
    (h : p.typeDecl? name = some d) (file : SourceFile) : name ∈ (p.scope file).localTypes :=
  List.mem_map.mpr ⟨d, List.mem_of_find?_eq_some h, name_of_typeDecl? h⟩

/-- The type of a field denotes what is recorded as embedded if the field is written with one
pointer at most, and without the name of another package. -/
private theorem Package.denotes_iff {p : Package} {file : SourceFile} {f : FieldDecl} {e : EmbedRef}
    {d : TypeDecl} (he : e.IsReadFrom f) (h : p.typeDecl? e.typeName = some d) :
    p.Denotes file f e.typeName ↔
      f.type.pointers ≤ 1 ∧ (p.scope file).QualifiesLocally f.type :=
  Scope.localName_stripPointer_resolve_iff List.not_mem_nil (mem_localTypes_scope h file) _ he.2

/-- **Embeddings are known by their names.** Every reference to what a page or an abstract page
embeds has the name of an abstract page, and it is read from an embedded field of the declaration.
The type of the field denotes the abstract page, or a pointer to it, exactly if it is not written
with the name of another package or with several pointers. -/
theorem Analysis.denotes_iff_of_mem_embeds {c : Conventions} {plugins : List Plugin}
    {sources : List Source} {app : App} (happ : (ofSources c plugins sources).app = some app) :
    ∃ p, Package.load sources = .ok p ∧ ∀ o ∈ app.owners, ∀ e ∈ o.embeds,
      e.typeName ∈ app.abstractPages.map AbstractPage.typeName ∧
      ∃ d fields, p.typeDecl? o.typeName = some d ∧ d.structFields? = some fields ∧
        (∃ f ∈ fields, e.IsReadFrom f) ∧ ∀ f ∈ fields, e.IsReadFrom f →
          (p.Denotes d.file f e.typeName ↔
            f.type.pointers ≤ 1 ∧ (p.scope d.file).QualifiesLocally f.type) := by
  obtain ⟨p, hload, -, happ⟩ := exists_package happ
  refine ⟨p, hload, fun o ho e he => ?_⟩
  obtain ⟨⟨q, hs, hq, rfl⟩, -⟩ := Setting.own_of_mem_owners happ ho
  obtain ⟨d, fields, hd, hfields, hembeds⟩ := Setting.exists_fields_of_declares hq
  rw [Owner.embeds_withHandlers, hembeds] at he
  obtain ⟨hname, hread⟩ := Setting.mem_embeds_iff.mp he
  obtain ⟨a, -, ha, -⟩ := Setting.isAbstractName_iff.mp hname
  rw [Owner.typeName_withHandlers, Setting.abstractPages_of_app? happ,
    Setting.map_typeName_attachedAbstractPages]
  exact ⟨Setting.isAbstractName_iff_mem.mp hname, d, fields, hd, hfields, hread,
    fun f _ hf => p.denotes_iff hf ha⟩

/-! ### A type of another package -/

/-- An application with an abstract page, and a page that embeds a type of the same name from
another package. -/
def foreignBase : List (String × List String) :=
  [("app.go",
    ["package app",
     "import \"net/http\"",
     "import \"github.com/a-h/templ\"",
     "import \"example.com/site/layout\"",
     "type App struct\x7b\x7d",
     "type Base struct\x7b App *App \x7d",
     "func (Base) GET(*http.Request) (body templ.Component) \x7b\x7d",
     "// PageIndex is /",
     "type PageIndex struct\x7b App *App; layout.Base \x7d"])]

/-- Does an embedded field at the place of the reference denote what the reference names? -/
def Package.denotesAt (p : Package) (d : TypeDecl) (e : EmbedRef) : Bool :=
  (d.structFields?.getD []).any fun f =>
    f.isEmbedded && f.type.location == e.location &&
      ((p.scope d.file).resolve (FieldOf.type f)).stripPointer.localName == some e.typeName

private theorem Package.denotesAt_of_denotes {p : Package} {d : TypeDecl} {fields : List FieldDecl}
    {f : FieldDecl} {e : EmbedRef} (hfields : d.structFields? = some fields) (hf : f ∈ fields)
    (hplace : e.IsAt f) (h : p.Denotes d.file f e.typeName) : p.denotesAt d e := by
  rw [denotesAt, hfields, Option.getD_some, List.any_eq_true]
  refine ⟨f, hf, ?_⟩
  simp only [Bool.and_eq_true, beq_iff_eq]
  exact ⟨hplace, h⟩

set_option maxRecDepth 100000 in
/-- Nothing is found in the application, although an embedded field does not denote what is recorded
for it. -/
theorem exists_app_foreignBase :
    ∃ p app, Package.load (sourcesOf foreignBase) = .ok p ∧
      (Analysis.ofSources .standard [] (sourcesOf foreignBase)).app = some app ∧
      (Analysis.ofSources .standard [] (sourcesOf foreignBase)).isClean ∧
      ∃ o ∈ app.owners, ∃ e ∈ o.embeds, ∃ d, p.typeDecl? o.typeName = some d ∧
        p.denotesAt d e = false := by
  -- the package is loaded once for all that is said about it
  have hall : ((Package.load (sourcesOf foreignBase)).toOption.any fun p =>
      (Analysis.ofPackage .standard [] p).isClean &&
        (Analysis.ofPackage .standard [] p).app.any fun app => app.owners.any fun o =>
          o.embeds.any fun e => (p.typeDecl? o.typeName).any fun d => !p.denotesAt d e) = true := by
    rw [Package.load_sourcesOf]
    decide +kernel
  obtain ⟨p, hload, hp⟩ := Package.exists_load_of_any hall
  rw [Bool.and_eq_true, Option.any_eq_true] at hp
  obtain ⟨hclean, app, happ, howner⟩ := hp
  simp only [List.any_eq_true, Option.any_eq_true, Bool.not_eq_true'] at howner
  rw [Analysis.ofSources, hload]
  exact ⟨p, app, rfl, happ, hclean, howner⟩

/-- In this application a page embeds something, which is an abstract page by its name. -/
theorem Analysis.denotes_iff_foreignBase :
    ∃ app, (ofSources .standard [] (sourcesOf foreignBase)).app = some app ∧
      (∃ o ∈ app.owners, ∃ e, e ∈ o.embeds) ∧
      ∃ p, Package.load (sourcesOf foreignBase) = .ok p ∧ ∀ o ∈ app.owners, ∀ e ∈ o.embeds,
        e.typeName ∈ app.abstractPages.map AbstractPage.typeName ∧
        ∃ d fields, p.typeDecl? o.typeName = some d ∧ d.structFields? = some fields ∧
          (∃ f ∈ fields, e.IsReadFrom f) ∧ ∀ f ∈ fields, e.IsReadFrom f →
            (p.Denotes d.file f e.typeName ↔
              f.type.pointers ≤ 1 ∧ (p.scope d.file).QualifiesLocally f.type) := by
  obtain ⟨-, app, -, happ, -, o, ho, e, he, -⟩ := exists_app_foreignBase
  exact ⟨app, happ, ⟨o, ho, e, he⟩, denotes_iff_of_mem_embeds happ⟩

/-- What is recorded as embedded need not be what the embedded field denotes. -/
theorem Analysis.not_forall_denotes :
    ¬ ∀ (sources : List Source) (p : Package) (app : App), Package.load sources = .ok p →
      (ofSources .standard [] sources).app = some app → ∀ o ∈ app.owners, ∀ e ∈ o.embeds,
        ∃ d fields f, p.typeDecl? o.typeName = some d ∧ d.structFields? = some fields ∧
          f ∈ fields ∧ e.IsAt f ∧ p.Denotes d.file f e.typeName := by
  intro hall
  obtain ⟨p, app, hload, happ, -, o, ho, e, he, d, hd, hnot⟩ := exists_app_foreignBase
  obtain ⟨d', fields, f, hd', hfields, hf, hplace, hdenotes⟩ := hall _ p app hload happ o ho e he
  obtain rfl : d = d' := by simpa [hd] using hd'
  simp [p.denotesAt_of_denotes hfields hf hplace hdenotes] at hnot

end GoPages
