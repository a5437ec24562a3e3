import GoPages.Proofs.Analysis.Closed
import GoPages.Proofs.Analysis.Owners
import GoPages.Proofs.Conventions.Standard

/-!
# The roles of declarations

Under the default conventions the name of a declared type and the form of its declaration say what
the type is for.

* `isEventName` is the grammar of event names, `TypeDecl.isPage` tells pages and
  `Package.isAbstractPage` abstract pages. All three look at the declaration alone, not at how an
  analysis goes through the types.
* `App.HasRoles` says that an application has exactly these pages, abstract pages and events, and
  that no type has two roles.
* `Analysis.hasRoles_of_app`: every application has these roles.

A name that starts with `Event` without being an event name is like any other name, and its type can
be an abstract page (`Analysis.not_forall_startsWith_event`).
-/

namespace GoPages

/-! ### Names -/

/-- Is the name `Event`, followed by a capital and then by letters and digits, all in ASCII? -/
def isEventName (name : String) : Bool :=
  match name.toList with
  | 'E' :: 'v' :: 'e' :: 'n' :: 't' :: c :: cs => c.isUpper && cs.all Char.isAlphanum
  | _ => false

/-- The name of an event is a capitalized word after the prefix. -/
theorem isEventName_iff {name : String} :
    isEventName name ↔ ∃ c cs, name.toList = "Event".toList ++ c :: cs ∧ c.isUpper ∧
      ∀ d ∈ cs, d.isAlphanum := by
  rw [isEventName]
  constructor
  · intro h
    split at h
    · next c cs hname =>
      obtain ⟨hc, hcs⟩ := Bool.and_eq_true_iff.mp h
      exact ⟨c, cs, hname, hc, List.all_eq_true.mp hcs⟩
    · cases h
  · rintro ⟨c, cs, hname, hc, hcs⟩
    rw [hname]
    exact Bool.and_eq_true_iff.mpr ⟨hc, List.all_eq_true.mpr hcs⟩

private theorem startsWith_of_isEventName {name : String} (h : isEventName name) :
    startsWith "Event" name := by
  obtain ⟨c, cs, hname, -⟩ := isEventName_iff.mp h
  exact startsWith_iff.mpr ⟨c :: cs, hname⟩

/-- The default conventions have this grammar. -/
theorem isValidEventName_standard (name : String) :
    Conventions.standard.isValidEventName name = isEventName name := by
  rw [Bool.eq_iff_iff, isEventName_iff, Conventions.isValidEventName]
  exact isCapitalized_iff_append

/-- What the name of a type can mean under the default conventions. -/
theorem Conventions.nameKind_cases (name : String) :
    (standard.nameKind name = .app ∧ name = "App" ∧ startsWith "Page" name = false ∧
      isEventName name = false) ∨
    (standard.nameKind name = .session ∧ name = "Session" ∧ startsWith "Page" name = false ∧
      isEventName name = false) ∨
    (standard.nameKind name = .event ∧ name ≠ "App" ∧ name ≠ "Session" ∧
      startsWith "Page" name = false) ∨
    (standard.nameKind name = .page ∧ name ≠ "App" ∧ name ≠ "Session" ∧
      startsWith "Page" name ∧ isEventName name = false) ∨
    (standard.nameKind name = .other ∧ name ≠ "App" ∧ name ≠ "Session" ∧
      startsWith "Page" name = false ∧ isEventName name = false) := by
  rw [nameKind, isSome_suffixAfter?, isSome_suffixAfter?]
  -- the rules are tried in turn: the two names, and then the two prefixes, which exclude each other
  by_cases happ : name = "App"
  · subst happ
    exact .inl (by decide)
  by_cases hsession : name = "Session"
  · subst hsession
    exact .inr (.inl (by decide))
  rw [if_neg (c := name = standard.appType) happ,
    if_neg (c := name = standard.sessionType) hsession]
  cases hevent : startsWith "Event" name with
  | true =>
    have hpage : startsWith "Page" name = false :=
      startsWith_eq_false (c := 'P') (d := 'E') hevent rfl rfl (by decide)
    exact .inr (.inr (.inl ⟨if_pos hevent, happ, hsession, hpage⟩))
  | false =>
    have hnot : isEventName name = false := by
      rw [Bool.eq_false_iff]
      intro hname
      simp [startsWith_of_isEventName hname] at hevent
    rw [if_neg (c := startsWith standard.eventPrefix name) (Bool.eq_false_iff.mp hevent)]
    cases hpage : startsWith "Page" name with
    | true => exact .inr (.inr (.inr (.inl ⟨if_pos hpage, happ, hsession, rfl, hnot⟩)))
    | false =>
      have hother := Bool.eq_false_iff.mp hpage
      exact .inr (.inr (.inr (.inr ⟨if_neg hother, happ, hsession, rfl, hnot⟩)))

/-! ### Declarations -/

namespace TypeDecl

/-- Is a struct type declared, and not only given another name? -/
def isStruct (d : TypeDecl) : Bool := d.structFields?.isSome

/-- Is a page declared: a struct type whose name starts with `Page`? -/
def isPage (d : TypeDecl) : Bool := d.isStruct && startsWith "Page" d.name

/-- Does the comment of the declaration give a subject for an event? -/
def hasSubject (d : TypeDecl) : Bool :=
  match Subject.ofComment d.name d.spec.doc with
  | .valid _ => true
  | _ => false

end TypeDecl

namespace Package

/-- Does a field declaration declare one field, with the name of the application and for a pointer
to it? -/
def declaresApp (p : Package) (file : SourceFile) (f : FieldDecl) : Bool :=
  f.names.map Ident.name == ["App"] &&
    match (p.scope file).resolve (FieldOf.type f) with
    | .pointer (.named "" "App" _) => true
    | _ => false

/-- A declaration is one of the application if it has this one name and is a pointer to the
application. -/
private theorem declaresApp_iff {p : Package} {file : SourceFile} {f : FieldDecl} :
    p.declaresApp file f ↔ f.names.map Ident.name = ["App"] ∧
      ∃ args, (p.scope file).resolve f.type = .pointer (.named "" "App" args) := by
  rw [declaresApp, Bool.and_eq_true, beq_iff_eq]
  refine and_congr_right fun _ => ?_
  split
  · next args htype => simp [htype]
  · next hnot => simpa using fun args => hnot args

/-- Is a struct type declared that has a field for the application? -/
def hasApp (p : Package) (d : TypeDecl) : Bool :=
  d.structFields?.any fun fields => fields.any (p.declaresApp d.file)

/-- Is an abstract page declared: a struct type with a field for the application, whose name is kept
for nothing else? -/
def isAbstractPage (p : Package) (d : TypeDecl) : Bool :=
  p.hasApp d && d.name != "App" && d.name != "Session" && !startsWith "Page" d.name &&
    !isEventName d.name

end Package

/-- The roles of types in an application. -/
inductive Role where
  | app
  | session
  | event
  | page
  | abstractPage
deriving DecidableEq

/-- Does a declaration have what a role asks for? -/
def Package.hasRole (p : Package) (d : TypeDecl) : Role → Bool
  | .app => d.name == "App"
  | .session => d.name == "Session"
  | .event => isEventName d.name
  | .page => d.isPage
  | .abstractPage => p.isAbstractPage d

/-- The role that an analysis gives a declared type. -/
def TypeRole.role? : TypeRole → Option Role
  | app => some .app
  | session => some .session
  | event => some .event
  | page _ => some .page
  | abstractPage _ => some .abstractPage
  | other => none

namespace Setting

variable {p : Package} {d : TypeDecl}

private theorem declaresApp_standard (file : SourceFile) (f : FieldDecl) :
    (⟨p, .standard⟩ : Setting).declaresApp file f = p.declaresApp file f := by
  have hpointer : (⟨p, .standard⟩ : Setting).isAppField file f ↔
      ∃ args, (p.scope file).resolve f.type = .pointer (.named "" "App" args) := by
    rw [isAppField]
    cases (p.scope file).resolve (FieldOf.type f) with
    | pointer elem =>
      cases elem <;> simp [isAppPointer, HostType.localName, Conventions.standard]
    | _ => simp [isAppPointer]
  rw [Bool.eq_iff_iff, Package.declaresApp_iff, ← hpointer, declaresApp]
  split
  · next id hnames => simp [hnames, Conventions.standard]
  · next hnot =>
    have hne : ∀ id, f.names ≠ [id] := hnot
    simp [List.map_eq_singleton_iff, hne]

/-- The meaning of the name decides between the forms of a declaration. -/
theorem role?_typeRole (hd : d ∈ p.types) :
    ((⟨p, .standard⟩ : Setting).typeRole d).role? =
      match Conventions.standard.nameKind d.name with
      | .app => some .app
      | .session => some .session
      | .event =>
        if isEventName d.name then some .event else if p.hasApp d then some .abstractPage else none
      | .page => if d.isStruct then some .page else none
      | .other => if p.hasApp d then some .abstractPage else none := by
  have hevent : (⟨p, .standard⟩ : Setting).isEventType d.name = isEventName d.name := by
    rw [isEventType, Package.mem_types_iff.mp hd, Option.isSome_some, Bool.and_true,
      isValidEventName_standard]
  have hfield : (⟨p, .standard⟩ : Setting).declaresApp d.file = p.declaresApp d.file :=
    funext (declaresApp_standard d.file)
  rw [typeRole, hevent, hfield, Package.hasApp, TypeDecl.isStruct]
  -- only an event prefix needs a second look: the name may still be no event name
  cases Conventions.standard.nameKind d.name with
  | app => rfl
  | session => rfl
  | event =>
    cases isEventName d.name with
    | true => rfl
    | false =>
      cases d.structFields? with
      | none => rfl
      | some fields =>
        cases hany : fields.any (p.declaresApp d.file) <;> simp [hany, TypeRole.role?]
  | page => cases d.structFields? <;> rfl
  | other =>
    cases d.structFields? with
    | none => rfl
    | some fields => cases hany : fields.any (p.declaresApp d.file) <;> simp [hany, TypeRole.role?]

/-- An analysis gives the declared types the roles that their declarations ask for. -/
theorem role?_typeRole_eq_some_iff (hd : d ∈ p.types) {r : Role} :
    ((⟨p, .standard⟩ : Setting).typeRole d).role? = some r ↔ p.hasRole d r := by
  rw [role?_typeRole hd]
  rcases Conventions.nameKind_cases d.name with ⟨hkind, hname, h⟩ | ⟨hkind, hname, h⟩ |
    ⟨hkind, h⟩ | ⟨hkind, h⟩ | ⟨hkind, h⟩
  all_goals rw [hkind]
  · rw [hname] at h
    cases r <;> simp [Package.hasRole, TypeDecl.isPage, Package.isAbstractPage, hname, h]
  · rw [hname] at h
    cases r <;> simp [Package.hasRole, TypeDecl.isPage, Package.isAbstractPage, hname, h]
  · cases r <;> cases hevent : isEventName d.name <;>
      simp [Package.hasRole, TypeDecl.isPage, Package.isAbstractPage, h, hevent]
  · cases r <;> simp [Package.hasRole, TypeDecl.isPage, Package.isAbstractPage, h]
  · cases r <;> simp [Package.hasRole, TypeDecl.isPage, Package.isAbstractPage, h]

/-! ### Tables -/

/-- A table has the names of the declarations that it is made from. -/
theorem map_name_filterMap_types {α : Type} {read : TypeDecl → Option α} {name : α → String}
    {keep : TypeDecl → Bool} (hname : ∀ d a, read d = some a → name a = d.name)
    (hkeep : ∀ d ∈ p.types, (read d).isSome = keep d) :
    (p.types.filterMap read).map name = (p.types.filter keep).map TypeDecl.name := by
  rw [List.map_filterMap, ← List.filterMap_eq_filter, List.map_filterMap]
  refine List.filterMap_congr fun d hd => ?_
  rw [Option.guard, ← hkeep d hd]
  cases hread : read d with
  | none => rfl
  | some a => simp [hname d a hread]

/-- The pages are the types that are pages by their declarations. -/
private theorem map_typeName_pages :
    (⟨p, .standard⟩ : Setting).pages.map Page.typeName =
      (p.types.filter TypeDecl.isPage).map TypeDecl.name := by
  refine map_name_filterMap_types typeName_of_page? fun d hd => ?_
  have hrole : ((⟨p, .standard⟩ : Setting).page? d).isSome ↔
      ((⟨p, .standard⟩ : Setting).typeRole d).role? = some .page := by
    rw [page?]
    cases (⟨p, .standard⟩ : Setting).typeRole d <;> simp [TypeRole.role?]
  rw [Bool.eq_iff_iff, hrole, role?_typeRole_eq_some_iff hd, Package.hasRole]

/-- The abstract pages are the types that are abstract pages by their declarations. -/
private theorem map_typeName_abstractPages :
    (⟨p, .standard⟩ : Setting).abstractPages.map AbstractPage.typeName =
      (p.types.filter p.isAbstractPage).map TypeDecl.name := by
  refine map_name_filterMap_types typeName_of_abstractPage? fun d hd => ?_
  have hrole : ((⟨p, .standard⟩ : Setting).abstractPage? d).isSome ↔
      ((⟨p, .standard⟩ : Setting).typeRole d).role? = some .abstractPage := by
    rw [abstractPage?]
    cases (⟨p, .standard⟩ : Setting).typeRole d <;> simp [TypeRole.role?]
  rw [Bool.eq_iff_iff, hrole, role?_typeRole_eq_some_iff hd, Package.hasRole]

private theorem isSome_eventShape? (s : Setting) (d : TypeDecl) :
    (s.eventShape? d).isSome = d.hasSubject := by
  rw [eventShape?, TypeDecl.hasSubject]
  cases Subject.ofComment d.name d.spec.doc <;> rfl

/-- The events are the types with the name and the comment of one. -/
private theorem map_typeName_events :
    (⟨p, .standard⟩ : Setting).events.map Event.typeName =
      (p.types.filter fun d => isEventName d.name && d.hasSubject).map TypeDecl.name := by
  refine map_name_filterMap_types typeName_of_event fun d hd => ?_
  have hrole := role?_typeRole_eq_some_iff hd (r := .event)
  rw [Package.hasRole] at hrole
  split
  · next hevent =>
    rw [hevent, TypeRole.role?] at hrole
    rw [isSome_eventShape?, hrole.mp rfl, Bool.true_and]
  · next hevent =>
    have hnot : isEventName d.name = false := by
      rw [Bool.eq_false_iff]
      intro hname
      have := hrole.mpr hname
      revert this hevent
      cases (⟨p, .standard⟩ : Setting).typeRole d <;> simp [TypeRole.role?]
    rw [hnot, Bool.false_and, Option.isSome_none]

end Setting

/-! ### Applications -/

/-- The names of the types that an application has in a role. -/
def App.namesIn (app : App) : Role → List String
  | .app => ["App"]
  | .session => app.session.toList.map SessionShape.typeName
  | .event => app.events.map Event.typeName
  | .page => app.pages.map Page.typeName
  | .abstractPage => app.abstractPages.map AbstractPage.typeName

/-- The pages, abstract pages and events of an application are those that the package declares, in
the order of their names, and no type has two roles. -/
structure App.HasRoles (p : Package) (app : App) : Prop where
  pages : app.pages.map Page.typeName = (p.types.filter TypeDecl.isPage).map TypeDecl.name
  abstractPages : app.abstractPages.map AbstractPage.typeName =
    (p.types.filter p.isAbstractPage).map TypeDecl.name
  eventTypes : ∀ name, (⟨p, .standard⟩ : Setting).isEventType name ↔
    name ∈ p.typeNames ∧ isEventName name
  events : app.events.map Event.typeName =
    (p.types.filter fun d => isEventName d.name && d.hasSubject).map TypeDecl.name
  declared : ∀ r, ∀ name ∈ app.namesIn r, ∃ d ∈ p.types, d.name = name ∧ p.hasRole d r
  unique : ∀ d ∈ p.types, ∀ r r', p.hasRole d r → p.hasRole d r' → r = r'

namespace Setting

variable {p : Package} {plugins : List Plugin} {app : App}

/-- The session is declared under its name. -/
theorem exists_mem_types_of_session? {x : SessionShape}
    (h : (⟨p, .standard⟩ : Setting).session? = some x) :
    ∃ d ∈ p.types, d.name = x.typeName ∧ p.hasRole d .session := by
  obtain ⟨d, hd, hrole, fields, -, rfl⟩ := exists_of_session? h
  refine ⟨d, hd, rfl, ?_⟩
  rw [← role?_typeRole_eq_some_iff hd, hrole, TypeRole.role?]

/-- What an application lists under a role has this role by its declaration. -/
private theorem hasRole_of_mem_namesIn (happ : (⟨p, .standard⟩ : Setting).app? plugins = some app)
    {r : Role} {name : String} (h : name ∈ app.namesIn r) :
    ∃ d ∈ p.types, d.name = name ∧ p.hasRole d r := by
  -- a name in a table of declarations is that of a declaration in the table
  have htable {keep : TypeDecl → Bool} (hkeep : ∀ d, keep d → p.hasRole d r)
      (h : name ∈ (p.types.filter keep).map TypeDecl.name) :
      ∃ d ∈ p.types, d.name = name ∧ p.hasRole d r := by
    obtain ⟨d, hd, hname⟩ := List.mem_map.mp h
    obtain ⟨hd, hkept⟩ := List.mem_filter.mp hd
    exact ⟨d, hd, hname, hkeep d hkept⟩
  cases r with
  | app =>
    obtain rfl : name = "App" := List.mem_singleton.mp h
    obtain ⟨d, hd, -⟩ := Option.map_eq_some_iff.mp happ
    have hname := Package.name_of_typeDecl? hd
    exact ⟨d, Package.mem_types_iff.mpr (hname ▸ hd), hname, beq_iff_eq.mpr hname⟩
  | session =>
    rw [App.namesIn, session_of_app? happ] at h
    obtain ⟨x, hx, rfl⟩ := List.mem_map.mp h
    exact exists_mem_types_of_session? (Option.mem_toList.mp hx)
  | event =>
    rw [App.namesIn, events_of_app? happ, map_typeName_events] at h
    exact htable (fun d hd => (Bool.and_eq_true_iff.mp hd).1) h
  | page =>
    rw [App.namesIn, pages_of_app? happ, map_typeName_inheritedPages, map_typeName_pages] at h
    exact htable (fun d hd => hd) h
  | abstractPage =>
    rw [App.namesIn, abstractPages_of_app? happ, map_typeName_attachedAbstractPages,
      map_typeName_abstractPages] at h
    exact htable (fun d hd => hd) h

/-- The lists of an application are the types with these roles, and no type has two of them. -/
private theorem hasRoles_of_app? (happ : (⟨p, .standard⟩ : Setting).app? plugins = some app) :
    app.HasRoles p where
  pages := by rw [pages_of_app? happ, map_typeName_inheritedPages, map_typeName_pages]
  abstractPages := by
    rw [abstractPages_of_app? happ, map_typeName_attachedAbstractPages, map_typeName_abstractPages]
  eventTypes name := by
    rw [isEventType, isValidEventName_standard, Bool.and_comm, Bool.and_eq_true,
      Package.mem_typeNames_iff]
  events := by rw [events_of_app? happ, map_typeName_events]
  declared r name h := hasRole_of_mem_namesIn happ h
  unique d hd r r' h h' := by
    have hrole := (role?_typeRole_eq_some_iff hd).mpr h
    rw [(role?_typeRole_eq_some_iff hd).mpr h', Option.some.injEq] at hrole
    exact hrole.symm

end Setting

/-- **Every type has one role, and its declaration says which.** -/
theorem Analysis.hasRoles_of_app {plugins : List Plugin} {sources : List Source} {app : App}
    (happ : (ofSources .standard plugins sources).app = some app) :
    ∃ p, Package.load sources = .ok p ∧ app.HasRoles p := by
  obtain ⟨p, hload, -, happ⟩ := exists_package happ
  exact ⟨p, hload, Setting.hasRoles_of_app? happ⟩

/-- An application with an event, and with an abstract page whose name starts like that of one. -/
def eventualPage : List (String × List String) :=
  [("app.go",
    ["package app",
     "type App struct\x7b\x7d",
     "// EventSaved is \"saved\"",
     "type EventSaved struct\x7b\x7d",
     "type Eventual struct\x7b App *App \x7d",
     "// PageIndex is /",
     "type PageIndex struct\x7b App *App \x7d"])]

set_option maxRecDepth 100000 in
/-- The application takes the type `Eventual` for an abstract page. -/
private theorem exists_app_eventualPage :
    ∃ app, (Analysis.ofSources .standard [] (sourcesOf eventualPage)).app = some app ∧
      app.pages.map Page.typeName = ["PageIndex"] ∧
      app.abstractPages.map AbstractPage.typeName = ["Eventual"] ∧
      app.events.map Event.typeName = ["EventSaved"] := by
  have hall : ((Analysis.ofSources .standard [] (sourcesOf eventualPage)).app.any fun app =>
      app.pages.map Page.typeName == ["PageIndex"] &&
        (app.abstractPages.map AbstractPage.typeName == ["Eventual"] &&
          app.events.map Event.typeName == ["EventSaved"])) = true := by
    rw [Analysis.ofSources, Package.load_sourcesOf]
    decide +kernel
  simpa only [Option.any_eq_true, Bool.and_eq_true, beq_iff_eq] using hall

/-- In this application the roles are those of the declarations. -/
theorem Analysis.hasRoles_eventualPage :
    ∃ app, (ofSources .standard [] (sourcesOf eventualPage)).app = some app ∧
      (app.pages.map Page.typeName = ["PageIndex"] ∧
        app.abstractPages.map AbstractPage.typeName = ["Eventual"] ∧
        app.events.map Event.typeName = ["EventSaved"]) ∧
      ∃ p, Package.load (sourcesOf eventualPage) = .ok p ∧ app.HasRoles p := by
  obtain ⟨app, happ, hnames⟩ := exists_app_eventualPage
  exact ⟨app, happ, hnames, hasRoles_of_app happ⟩

/-- A type whose name starts with `Event` can be an abstract page. -/
theorem Analysis.not_forall_startsWith_event :
    ¬ ∀ (sources : List Source) (app : App), (ofSources .standard [] sources).app = some app →
      ∀ name ∈ app.abstractPages.map AbstractPage.typeName, startsWith "Event" name = false := by
  intro hall
  obtain ⟨app, happ, -, hnames, -⟩ := exists_app_eventualPage
  have hmem : "Eventual" ∈ app.abstractPages.map AbstractPage.typeName := by
    rw [hnames]
    exact List.mem_singleton_self _
  exact absurd (hall _ app happ "Eventual" hmem) (by decide)

end GoPages
