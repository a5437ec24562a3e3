import GoPages.Analysis
import Mathlib.Data.List.Nodup

/-!
# Tables of declared types

An analysis goes through the declared types of a package, and what it takes from them stands under
their names. So every table that it makes has each name at most once.

* `nodup_typeNames` and `mem_types_iff`: the declared types have different names, and those among
  all declarations count that `Package.typeDecl?` finds.
* `nodup_names_filterMap_types` carries this over to the tables of pages, abstract pages and events,
  whose members come from the declaration of their name (`mem_pages_iff` and its kin) and are read
  from its fields (`exists_typeRole_of_mem_pages`).
* `Setting.owner?_page` and `Setting.owner?_abstractPage`: no name is both the name of a page and
  that of an abstract page, and neither is that of the application.
-/

namespace GoPages

/-- Nothing is repeated where repetitions are left out. -/
theorem nodup_eraseDups {α : Type} [DecidableEq α] (as : List α) : as.eraseDups.Nodup := by
  cases as with
  | nil => simp
  | cons a as =>
    rw [List.eraseDups_cons, List.nodup_cons]
    exact ⟨by simp, nodup_eraseDups _⟩
termination_by as.length
decreasing_by
  have := List.length_filter_le (fun b => !b == a) as
  simp only [List.length_cons]
  omega

/-- In a list with different names a member is found under its name. -/
theorem find?_name_of_mem {α : Type} {name : α → String} {as : List α} {a : α}
    (hnodup : (as.map name).Nodup) (ha : a ∈ as) :
    (as.find? fun b => name b == name a) = some a := by
  obtain ⟨before, after, rfl⟩ := List.append_of_mem ha
  rw [List.find?_append, List.find?_eq_none.mpr, Option.none_or, List.find?_cons_of_pos (by simp)]
  intro b hb hname
  rw [List.map_append, List.nodup_append] at hnodup
  exact hnodup.2.2 (name b) (List.mem_map_of_mem hb) (name a) (by simp) (by simpa using hname)

namespace Package

/-! ### Declared types -/

/-- The declaration of a name has this name. -/
theorem name_of_typeDecl? {p : Package} {name : String} {d : TypeDecl}
    (h : p.typeDecl? name = some d) : d.name = name := by
  simpa using List.find?_some h

/-- The declared names are listed once each. -/
theorem nodup_typeNames (p : Package) : p.typeNames.Nodup :=
  (sortBy_perm _ _).nodup_iff.mpr (nodup_eraseDups _)

/-- The listed names are those that are declared. -/
theorem mem_typeNames_iff {p : Package} {name : String} :
    name ∈ p.typeNames ↔ (p.typeDecl? name).isSome := by
  rw [typeNames, (sortBy_perm _ _).mem_iff, List.mem_eraseDups, List.mem_map, typeDecl?, findDecl?,
    List.find?_isSome]
  simp

/-- The first declaration of every name counts. -/
theorem mem_types_iff {p : Package} {d : TypeDecl} :
    d ∈ p.types ↔ p.typeDecl? d.name = some d := by
  rw [types, List.mem_filterMap]
  constructor
  · rintro ⟨name, -, h⟩
    rwa [name_of_typeDecl? h]
  · intro h
    exact ⟨d.name, mem_typeNames_iff.mpr (by simp [h]), h⟩

/-- The declared types have the listed names. -/
theorem map_name_types (p : Package) : p.types.map TypeDecl.name = p.typeNames := by
  rw [types, List.map_filterMap]
  have hself : ∀ name ∈ p.typeNames, (p.typeDecl? name).map TypeDecl.name = some name := by
    intro name hname
    obtain ⟨d, hd⟩ := Option.isSome_iff_exists.mp (mem_typeNames_iff.mp hname)
    rw [hd, Option.map_some, name_of_typeDecl? hd]
  rw [List.filterMap_congr hself, List.filterMap_some]

/-- A table of declared types has each name at most once. -/
theorem nodup_names_filterMap_types {α : Type} (p : Package) {read : TypeDecl → Option α}
    {name : α → String} (hname : ∀ d a, read d = some a → name a = d.name) :
    ((p.types.filterMap read).map name).Nodup := by
  have hsub : ((p.types.filterMap read).map name).Sublist (p.types.map TypeDecl.name) := by
    induction p.types with
    | nil => exact .slnil
    | cons d ds ih =>
      rw [List.filterMap_cons]
      cases hread : read d with
      | none => exact ih.cons _
      | some a => simpa [hname d a hread] using ih
  exact hsub.nodup (map_name_types p ▸ nodup_typeNames p)

/-- What stands under a name in a table comes from the declaration of the name. -/
theorem mem_filterMap_types_iff {α : Type} {p : Package} {read : TypeDecl → Option α}
    {name : α → String} (hname : ∀ d a, read d = some a → name a = d.name) {a : α} :
    a ∈ p.types.filterMap read ↔ ∃ d, p.typeDecl? (name a) = some d ∧ read d = some a := by
  rw [List.mem_filterMap]
  constructor
  · rintro ⟨d, hd, ha⟩
    exact ⟨d, hname d a ha ▸ mem_types_iff.mp hd, ha⟩
  · rintro ⟨d, hd, ha⟩
    exact ⟨d, mem_types_iff.mpr (hname d a ha ▸ hd), ha⟩

end Package

namespace Setting

variable {s : Setting}

/-! ### Roles -/

/-- The name of the application is kept for it. -/
theorem ne_appType_of_typeRole {d : TypeDecl} (h : s.typeRole d ≠ .app) :
    d.name ≠ s.conventions.appType := by
  intro hname
  exact h (by simp [typeRole, Conventions.nameKind, hname])

/-- An abstract page is known by the role of the type with its name. -/
theorem isAbstractName_iff {name : String} :
    s.isAbstractName name ↔
      ∃ d fields, s.package.typeDecl? name = some d ∧ s.typeRole d = .abstractPage fields := by
  rw [isAbstractName]
  cases h : s.package.typeDecl? name with
  | none => simp
  | some d =>
    simp only [isAbstractPage, Option.some.injEq, exists_eq_left', exists_and_left]
    split <;> simp_all

/-! ### Pages -/

/-- A page comes from a type in this role, without handlers. -/
theorem page?_eq_some_iff {d : TypeDecl} {p : Page} :
    s.page? d = some p ↔ ∃ fields, s.typeRole d = .page fields ∧
      p = ⟨d.name, (Route.ofComment d.name d.spec.doc).route, s.pageKind d.name, d.location, none,
        [], [], s.embeds fields⟩ := by
  rw [page?]
  constructor
  · intro h
    split at h
    · next fields hrole =>
      cases h
      exact ⟨fields, hrole, rfl⟩
    · cases h
  · rintro ⟨fields, hrole, rfl⟩
    rw [hrole]

/-- A page has the name of its type. -/
theorem typeName_of_page? (d : TypeDecl) (p : Page) (h : s.page? d = some p) :
    p.typeName = d.name := by
  rw [page?_eq_some_iff] at h
  obtain ⟨fields, -, rfl⟩ := h
  rfl

/-- No two pages have one name. -/
theorem nodup_typeName_pages (s : Setting) : (s.pages.map Page.typeName).Nodup :=
  s.package.nodup_names_filterMap_types typeName_of_page?

/-- The pages come from the declarations that count. -/
theorem mem_pages_iff {p : Page} :
    p ∈ s.pages ↔ ∃ d, s.package.typeDecl? p.typeName = some d ∧ s.page? d = some p :=
  Package.mem_filterMap_types_iff typeName_of_page?

/-- A page is read from a declared type in this role. -/
theorem exists_typeRole_of_mem_pages {p : Page} (h : p ∈ s.pages) :
    ∃ d fields, s.package.typeDecl? d.name = some d ∧ s.typeRole d = .page fields ∧
      p = ⟨d.name, (Route.ofComment d.name d.spec.doc).route, s.pageKind d.name, d.location, none,
        [], [], s.embeds fields⟩ := by
  simp only [mem_pages_iff, page?_eq_some_iff] at h
  obtain ⟨d, hd, fields, hrole, rfl⟩ := h
  exact ⟨d, fields, hd, hrole, rfl⟩

/-! ### Abstract pages -/

/-- An abstract page comes from a type in this role, without handlers. -/
theorem abstractPage?_eq_some_iff {d : TypeDecl} {p : AbstractPage} :
    s.abstractPage? d = some p ↔ ∃ fields, s.typeRole d = .abstractPage fields ∧
      p = ⟨d.name, d.location, none, [], [], s.embeds fields⟩ := by
  rw [abstractPage?]
  constructor
  · intro h
    split at h
    · next fields hrole =>
      cases h
      exact ⟨fields, hrole, rfl⟩
    · cases h
  · rintro ⟨fields, hrole, rfl⟩
    rw [hrole]

/-- An abstract page has the name of its type. -/
theorem typeName_of_abstractPage? (d : TypeDecl) (p : AbstractPage)
    (h : s.abstractPage? d = some p) : p.typeName = d.name := by
  rw [abstractPage?_eq_some_iff] at h
  obtain ⟨fields, -, rfl⟩ := h
  rfl

/-- No two abstract pages have one name. -/
theorem nodup_typeName_abstractPages (s : Setting) :
    (s.abstractPages.map AbstractPage.typeName).Nodup :=
  s.package.nodup_names_filterMap_types typeName_of_abstractPage?

/-- The abstract pages come from the declarations that count. -/
theorem mem_abstractPages_iff {p : AbstractPage} :
    p ∈ s.abstractPages ↔
      ∃ d, s.package.typeDecl? p.typeName = some d ∧ s.abstractPage? d = some p :=
  Package.mem_filterMap_types_iff typeName_of_abstractPage?

/-- An abstract page is read from a declared type in this role. -/
theorem exists_typeRole_of_mem_abstractPages {p : AbstractPage} (h : p ∈ s.abstractPages) :
    ∃ d fields, s.package.typeDecl? d.name = some d ∧ s.typeRole d = .abstractPage fields ∧
      p = ⟨d.name, d.location, none, [], [], s.embeds fields⟩ := by
  simp only [mem_abstractPages_iff, abstractPage?_eq_some_iff] at h
  obtain ⟨d, hd, fields, hrole, rfl⟩ := h
  exact ⟨d, fields, hd, hrole, rfl⟩

/-- The names of abstract pages are the names of the abstract pages. -/
theorem isAbstractName_iff_mem {name : String} :
    s.isAbstractName name ↔ name ∈ s.abstractPages.map AbstractPage.typeName := by
  rw [isAbstractName_iff, List.mem_map]
  constructor
  · rintro ⟨d, fields, hd, hrole⟩
    obtain rfl := Package.name_of_typeDecl? hd
    have hp := abstractPage?_eq_some_iff.mpr ⟨fields, hrole, rfl⟩
    exact ⟨_, mem_abstractPages_iff.mpr ⟨d, hd, hp⟩, rfl⟩
  · rintro ⟨p, hp, rfl⟩
    obtain ⟨d, fields, hd, hrole, rfl⟩ := exists_typeRole_of_mem_abstractPages hp
    exact ⟨d, fields, hd, hrole⟩

/-- What is embedded are abstract pages. -/
theorem typeName_mem_of_mem_embeds {fields : List FieldDecl} {e : EmbedRef}
    (h : e ∈ s.embeds fields) : e.typeName ∈ s.abstractPages.map AbstractPage.typeName := by
  rw [← isAbstractName_iff_mem]
  exact (List.mem_filter.mp h).2

/-- What a page embeds is an abstract page. -/
theorem typeName_mem_of_mem_pages {p : Page} (hp : p ∈ s.pages) {e : EmbedRef}
    (he : e ∈ p.embeds) : e.typeName ∈ s.abstractPages.map AbstractPage.typeName := by
  obtain ⟨d, fields, -, -, rfl⟩ := exists_typeRole_of_mem_pages hp
  exact typeName_mem_of_mem_embeds he

/-- What an abstract page embeds is an abstract page. -/
theorem typeName_mem_of_mem_abstractPages {p : AbstractPage} (hp : p ∈ s.abstractPages)
    {e : EmbedRef} (he : e ∈ p.embeds) :
    e.typeName ∈ s.abstractPages.map AbstractPage.typeName := by
  obtain ⟨d, fields, -, -, rfl⟩ := exists_typeRole_of_mem_abstractPages hp
  exact typeName_mem_of_mem_embeds he

/-! ### Owners -/

/-- The name of a page is that of an owner. -/
theorem owner?_page {p : Page} (h : p ∈ s.pages) : s.owner? p.typeName = some (.page p) := by
  rw [owner?, find?_name_of_mem s.nodup_typeName_pages h]

/-- So is the name of an abstract page. -/
theorem owner?_abstractPage {p : AbstractPage} (h : p ∈ s.abstractPages) :
    s.owner? p.typeName = some (.abstractPage p) := by
  have hnone : (s.pages.find? fun q => q.typeName == p.typeName) = none := by
    rw [List.find?_eq_none]
    intro q hq hname
    obtain ⟨d, fields, hd, hrole, rfl⟩ := exists_typeRole_of_mem_abstractPages h
    obtain ⟨d', fields', hd', hrole', rfl⟩ := exists_typeRole_of_mem_pages hq
    have hsame : d'.name = d.name := beq_iff_eq.mp hname
    rw [hsame, hd, Option.some.injEq] at hd'
    simp [hd', hrole'] at hrole
  rw [owner?, hnone, findAbstract?, find?_name_of_mem s.nodup_typeName_abstractPages h]
  rfl

/-- A page or an abstract page is found under its name, which is not that of the application. -/
def declares (s : Setting) : Owner → Prop
  | .page p => p ∈ s.pages
  | .abstractPage p => p ∈ s.abstractPages

/-- An owner is found by its name. -/
theorem owner?_typeName {o : Owner} (h : s.declares o) : s.owner? o.typeName = some o := by
  cases o with
  | page p => exact owner?_page h
  | abstractPage p => exact owner?_abstractPage h

/-- And nothing else is found. -/
theorem owner?_eq_some_iff {o : Owner} {name : String} :
    s.owner? name = some o ↔ s.declares o ∧ o.typeName = name := by
  constructor
  · intro h
    rw [owner?] at h
    split at h
    · next p hp =>
      cases h
      have hname := List.find?_some hp
      exact ⟨List.mem_of_find?_eq_some hp, beq_iff_eq.mp hname⟩
    · obtain ⟨p, hp, rfl⟩ := Option.map_eq_some_iff.mp h
      have hname := List.find?_some hp
      exact ⟨List.mem_of_find?_eq_some hp, beq_iff_eq.mp hname⟩
  · rintro ⟨h, rfl⟩
    exact owner?_typeName h

/-- The owners are declared. -/
theorem declares_of_mem_owners {o : Owner} (h : o ∈ s.owners) : s.declares o := by
  obtain ⟨name, -, hname⟩ := List.mem_filterMap.mp h
  exact (owner?_eq_some_iff.mp hname).1

/-- The application is no owner. -/
theorem typeName_ne_appType {o : Owner} (h : s.declares o) :
    o.typeName ≠ s.conventions.appType := by
  cases o with
  | page p =>
    obtain ⟨d, fields, -, hrole, rfl⟩ := exists_typeRole_of_mem_pages h
    exact ne_appType_of_typeRole (by simp [hrole])
  | abstractPage p =>
    obtain ⟨d, fields, -, hrole, rfl⟩ := exists_typeRole_of_mem_abstractPages h
    exact ne_appType_of_typeRole (by simp [hrole])

/-! ### Events -/

/-- An event has the name of its type. -/
theorem typeName_of_eventShape? (d : TypeDecl) (e : Event) (h : s.eventShape? d = some e) :
    e.typeName = d.name := by
  rw [eventShape?] at h
  split at h
  · cases h
    rfl
  · cases h

theorem typeName_of_event (d : TypeDecl) (e : Event)
    (h : (match s.typeRole d with | .event => s.eventShape? d | _ => none) = some e) :
    e.typeName = d.name := by
  split at h
  · exact typeName_of_eventShape? d e h
  · cases h

/-- No two events have one name. -/
theorem nodup_typeName_events (s : Setting) : (s.events.map Event.typeName).Nodup :=
  s.package.nodup_names_filterMap_types typeName_of_event

/-- The events come from the declarations that count. -/
theorem mem_events_iff {e : Event} :
    e ∈ s.events ↔ ∃ d, s.package.typeDecl? e.typeName = some d ∧ s.typeRole d = .event ∧
      s.eventShape? d = some e := by
  refine (Package.mem_filterMap_types_iff typeName_of_event).trans ?_
  refine exists_congr fun d => and_congr_right fun _ => ?_
  split <;> simp_all

/-- With the default conventions, no whole event name has another meaning. -/
theorem nameKind_of_isValidEventName {name : String}
    (h : Conventions.standard.isValidEventName name) :
    Conventions.standard.nameKind name = .event := by
  have happ : name ≠ Conventions.standard.appType := by
    rintro rfl
    exact absurd h (by decide)
  have hsession : name ≠ Conventions.standard.sessionType := by
    rintro rfl
    exact absurd h (by decide)
  have hsuffix : (suffixAfter? Conventions.standard.eventPrefix name).isSome := by
    obtain ⟨c, rest, hname, -⟩ := isCapitalized_iff_append.mp h
    simp [suffixAfter?, Text.strip?_eq_some_iff.mpr hname]
  rw [Conventions.nameKind, if_neg happ, if_neg hsession, if_pos hsuffix]

/-- With the default conventions, the event types are declared as events. -/
theorem exists_typeRole_of_isEventType (hstd : s.conventions = .standard) {name : String}
    (h : s.isEventType name) :
    ∃ d, s.package.typeDecl? name = some d ∧ s.typeRole d = .event := by
  obtain ⟨hvalid, hdecl⟩ : s.conventions.isValidEventName name ∧
      (s.package.typeDecl? name).isSome := by simpa [isEventType] using h
  obtain ⟨d, hd⟩ := Option.isSome_iff_exists.mp hdecl
  obtain rfl := Package.name_of_typeDecl? hd
  have hkind : s.conventions.nameKind d.name = .event := by
    rw [hstd] at hvalid ⊢
    exact nameKind_of_isValidEventName hvalid
  exact ⟨d, hd, by simp [typeRole, hkind, h]⟩

end Setting

end GoPages
