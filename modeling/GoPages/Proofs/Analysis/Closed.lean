import GoPages.Proofs.Analysis.Provenance

/-!
# Clean applications are closed

An application is closed if every name in it stands for exactly one thing.

* `App.IsClosed` says so for pages, for what they embed and inherit, and for the events that
  handlers react to or dispatch. The parts are `Page.IsClosed`, `Handler.IsClosed` and
  `EventHandler.IsClosed`.
* `Analysis.isClosed_of_isClean`: the application of a clean analysis is closed.

What is inherited is found in the table of abstract pages since it has been taken from there
(`Page.extends_inherit`), and methods are told apart since the package has been checked
(`Package.nodup_name_methodsOf`).
-/

namespace GoPages

/-- The name stands exactly once in a list. -/
def IsNameOfOne (name : String) (names : List String) : Prop := names.count name = 1

namespace App

/-- The names of the abstract pages. -/
def abstractNames (app : App) : List String := app.abstractPages.map AbstractPage.typeName

/-- The names of the events. -/
def eventNames (app : App) : List String := app.events.map Event.typeName

end App

/-- The name of an owner is that of exactly one abstract page, which declares under a method name
what is inherited from it. -/
def App.Declares (app : App) (declared : AbstractPage → List String) (owner methodName : String) :
    Prop :=
  IsNameOfOne owner app.abstractNames ∧
    ∃ p ∈ app.abstractPages, p.typeName = owner ∧ methodName ∈ declared p

/-- What a handler of requests names is there. -/
structure Handler.IsClosed (app : App) (h : Handler) : Prop where
  dispatchedEvents : ∀ name ∈ h.dispatchedEvents, IsNameOfOne name app.eventNames
  reflectsSignals : h.ReflectsSignals

/-- The event of an event handler is there. -/
structure EventHandler.IsClosed (app : App) (h : EventHandler) : Prop where
  eventType : IsNameOfOne h.eventType app.eventNames

/-- A page is without ambiguity, it has a body, and what it names is there. -/
structure Page.IsClosed (app : App) (p : Page) : Prop where
  methodNames : p.methodNames.Nodup
  eventTypes : (p.eventHandlers.map EventHandler.eventType).Nodup
  get : ∃ h, p.get = some h ∧ h.outputs.body.isSome
  embeds : ∀ e ∈ p.embeds, IsNameOfOne e.typeName app.abstractNames
  inheritedGet : ∀ h ∈ p.get, ∀ owner ∈ h.inheritedFrom,
    app.Declares (fun a => a.get.toList.map Handler.methodName) owner h.methodName
  inheritedActions : ∀ h ∈ p.actions, ∀ owner ∈ h.inheritedFrom,
    app.Declares (fun a => a.actions.map Handler.methodName) owner h.methodName
  inheritedEventHandlers : ∀ h ∈ p.eventHandlers, ∀ owner ∈ h.inheritedFrom,
    app.Declares (fun a => a.eventHandlers.map EventHandler.methodName) owner h.methodName
  requestHandlers : ∀ h ∈ p.requestHandlers, h.IsClosed app
  eventHandlers : ∀ h ∈ p.eventHandlers, h.IsClosed app

/-- An abstract page inherits nothing, and what it names is there. -/
structure AbstractPage.IsClosed (app : App) (p : AbstractPage) : Prop where
  embeds : ∀ e ∈ p.embeds, IsNameOfOne e.typeName app.abstractNames
  requestHandlers : ∀ h ∈ p.requestHandlers, h.inheritedFrom = none ∧ h.IsClosed app
  eventHandlers : ∀ h ∈ p.eventHandlers, h.inheritedFrom = none ∧ h.IsClosed app

/-- Every name in the application stands for exactly one thing. -/
structure App.IsClosed (app : App) : Prop where
  typeNames : (app.pages.map Page.typeName).Nodup
  pages : ∀ p ∈ app.pages, p.IsClosed app
  abstractPages : ∀ p ∈ app.abstractPages, p.IsClosed app

/-! ### Tables -/

private theorem isNameOfOne_of_mem {names : List String} (hnodup : names.Nodup) {name : String}
    (h : name ∈ names) : IsNameOfOne name names :=
  List.count_eq_one_of_mem hnodup h

namespace Setting

variable {s : Setting} {plugins : List Plugin}

/-- Pages keep their names and their order through all of the analysis. -/
theorem map_typeName_inheritedPages (s : Setting) (plugins : List Plugin) :
    ((s.inheritedPages plugins).map Prod.fst).map Page.typeName = s.pages.map Page.typeName := by
  rw [inheritedPages, attachedPages, List.map_map, List.map_map, List.map_map]
  refine List.map_congr_left fun p _ => ?_
  obtain ⟨m, hm, hext⟩ := Page.extends_inherit (s.attachedAbstractPages plugins)
    (s.attachedPage plugins p)
  exact (congrArg Page.typeName hm).trans hext.typeName

/-- The name of an event type is that of an event, unless its subject is a finding. -/
theorem IsClean.isNameOfOne_of_isEventType (hclean : s.IsClean plugins)
    (hstd : s.conventions = .standard) {name : String} (h : s.isEventType name) :
    IsNameOfOne name (s.events.map Event.typeName) := by
  obtain ⟨d, hd, hrole⟩ := exists_typeRole_of_isEventType hstd h
  obtain rfl := Package.name_of_typeDecl? hd
  have hsubject := hclean.types d (Package.mem_types_iff.mpr hd)
  rw [roleOfTypeFindings, hrole] at hsubject
  refine isNameOfOne_of_mem s.nodup_typeName_events (List.mem_map.mpr ?_)
  cases hcomment : Subject.ofComment d.name d.spec.doc with
  | valid subject =>
    have hshape : ∃ e, s.eventShape? d = some e := by simp [eventShape?, hcomment]
    obtain ⟨e, he⟩ := hshape
    have hname := typeName_of_eventShape? d e he
    exact ⟨e, mem_events_iff.mpr ⟨d, hname ▸ hd, hrole, he⟩, hname⟩
  | _ => simp [subjectFindings, hcomment, Subject.error?] at hsubject

/-! ### Parts of an application -/

section App

variable {app : App} (happ : s.app? plugins = some app)
include happ

/-- An abstract page has its name for itself. -/
private theorem isNameOfOne_abstractNames {name : String}
    (h : name ∈ s.abstractPages.map AbstractPage.typeName) :
    IsNameOfOne name app.abstractNames := by
  rw [App.abstractNames, abstractPages_of_app? happ, map_typeName_attachedAbstractPages]
  exact isNameOfOne_of_mem s.nodup_typeName_abstractPages h

/-- What has the mark of an owner has been taken from the abstract page of that name. -/
theorem declares_of_mem_mark {mark : Option String} {declared : AbstractPage → List String}
    {methodName owner : String} (howner : owner ∈ mark)
    (hmark : mark = none ∨ ∃ a ∈ s.attachedAbstractPages plugins,
      mark = some a.typeName ∧ methodName ∈ declared a) :
    app.Declares declared owner methodName := by
  rcases hmark with rfl | ⟨a, ha, rfl, hmem⟩
  · cases howner
  · cases howner
    refine ⟨isNameOfOne_abstractNames happ ?_, a, ?_, rfl, hmem⟩
    · rw [← map_typeName_attachedAbstractPages s plugins]
      exact List.mem_map_of_mem ha
    · rwa [abstractPages_of_app? happ]

variable (hclean : s.IsClean plugins) (hstd : s.conventions = .standard)
include hclean hstd

private theorem isNameOfOne_eventNames {name : String} (h : s.isEventType name) :
    IsNameOfOne name app.eventNames := by
  rw [App.eventNames, events_of_app? happ]
  exact hclean.isNameOfOne_of_isEventType hstd h

/-- A handler that is sound mentions nothing that is not declared. -/
private theorem isClosed_of_isSound {h : Handler} (hsound : h.IsSound s) : h.IsClosed app where
  dispatchedEvents name hname :=
    isNameOfOne_eventNames happ hclean hstd (hsound.dispatchedEvents name hname)
  reflectsSignals := hsound.reflectsSignals

private theorem isClosed_abstractPage {a : AbstractPage}
    (ha : a ∈ s.attachedAbstractPages plugins) : a.IsClosed app := by
  obtain ⟨q, hq, rfl⟩ := exists_abstractPage ha
  have hread := (Owner.abstractPage q).areReadFrom_handlers s plugins
  refine ⟨fun e he => isNameOfOne_abstractNames happ (typeName_mem_of_mem_abstractPages hq he),
    fun h hh => ⟨?_, isClosed_of_isSound happ hclean hstd (hclean.isSound_of_abstractPage ha hh)⟩,
    fun h hh => ?_⟩
  · obtain ⟨m, -, hm⟩ := hread.exists_isReadFrom hh
    exact hm.inheritedFrom
  · obtain ⟨m, -, hm⟩ := hread.eventHandlers h hh
    exact ⟨hm.inheritedFrom, ⟨isNameOfOne_eventNames happ hclean hstd hm.isEventType⟩⟩

/-- The pages of a clean analysis are closed. -/
private theorem isClosed_page {p : Page} (hp : p ∈ (s.inheritedPages plugins).map Prod.fst) :
    p.IsClosed app := by
  obtain ⟨q, hq, m, rfl, hext⟩ := exists_extends hp
  have hread := (Owner.page q).areReadFrom_handlers s plugins
  have hnames : ((s.methodsOf q.typeName).map Method.name).Nodup := by
    rw [methodsOf, List.map_map]
    exact Package.nodup_name_methodsOf hclean.package q.typeName
  -- what a page declares itself was checked when its methods were read; what it has inherited was
  -- declared by an abstract page, under whose mark it stands
  refine
    { methodNames := hext.nodup_methodNames (hread.nodup_methodNames hnames)
      eventTypes := hext.nodup_eventTypes hread.nodup_eventTypes
      get := ?_
      embeds := fun e he =>
        isNameOfOne_abstractNames happ (typeName_mem_of_mem_pages hq (hext.embeds ▸ he))
      inheritedGet := ?_
      inheritedActions := ?_
      inheritedEventHandlers := ?_
      requestHandlers := fun h hh =>
        isClosed_of_isSound happ hclean hstd (hclean.isSound_of_page hp hh)
      eventHandlers := ?_ }
  · obtain ⟨h, hget⟩ := Option.isSome_iff_exists.mp (hclean.gets _ hp)
    have hh : h ∈ m.page.requestHandlers := List.mem_append_left _ (Option.mem_toList.mpr hget)
    exact ⟨h, hget, (hclean.isSound_of_page hp hh).body (method_of_mem_get hp hget)⟩
  · intro h hh owner howner
    refine declares_of_mem_mark happ howner ((get_unmarked_or_inherited hp hh).imp_right ?_)
    rintro ⟨a, ha, b, hb, rfl⟩
    exact ⟨a, ha, rfl, List.mem_map.mpr ⟨b, Option.mem_toList.mpr hb, rfl⟩⟩
  · intro h hh owner howner
    refine declares_of_mem_mark happ howner ((action_unmarked_or_inherited hp hh).imp_right ?_)
    rintro ⟨a, ha, b, hb, rfl⟩
    exact ⟨a, ha, rfl, List.mem_map.mpr ⟨b, hb, rfl⟩⟩
  · intro h hh owner howner
    refine declares_of_mem_mark happ howner
      ((eventHandler_unmarked_or_inherited hp hh).imp_right ?_)
    rintro ⟨a, ha, b, hb, rfl⟩
    exact ⟨a, ha, rfl, List.mem_map.mpr ⟨b, hb, rfl⟩⟩
  · intro h hh
    rcases hext.eventHandlers h hh with hown | ⟨a, ha, b, hb, rfl⟩
    · obtain ⟨m, -, hm⟩ := hread.eventHandlers h hown
      exact ⟨isNameOfOne_eventNames happ hclean hstd hm.isEventType⟩
    · obtain ⟨-, hb⟩ := (isClosed_abstractPage happ hclean hstd ha).eventHandlers b hb
      exact ⟨hb.eventType⟩

end App

end Setting

/-- **A clean application is closed.** If nothing is found in a package, then its pages and their
handlers are told apart by their names, every page has a body, and every name of an abstract page,
of an inherited method, of an event or of a reflected signal stands for what it says. -/
theorem Analysis.isClosed_of_isClean {plugins : List Plugin} {sources : List Source} {app : App}
    (happ : (ofSources .standard plugins sources).app = some app)
    (hclean : (ofSources .standard plugins sources).isClean) : app.IsClosed := by
  obtain ⟨s, hstd, -, happ, hclean⟩ := exists_setting happ hclean
  refine ⟨?_, fun p hp => ?_, fun p hp => ?_⟩
  · rw [Setting.pages_of_app? happ, Setting.map_typeName_inheritedPages]
    exact s.nodup_typeName_pages
  · rw [Setting.pages_of_app? happ] at hp
    exact Setting.isClosed_page happ hclean hstd hp
  · rw [Setting.abstractPages_of_app? happ] at hp
    exact Setting.isClosed_abstractPage happ hclean hstd hp

/-- The application in which pages share an action is closed. -/
theorem Analysis.isClosed_sharedSave :
    ∃ app, (ofSources .standard [] (sourcesOf sharedSave)).app = some app ∧ app.IsClosed := by
  obtain ⟨app, happ, hclean, -⟩ := exists_app_sharedSave
  exact ⟨app, happ, isClosed_of_isClean happ hclean⟩

end GoPages
