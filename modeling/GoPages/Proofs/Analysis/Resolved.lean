import GoPages.Proofs.Analysis.Owners
import GoPages.Proofs.Analysis.Passes
import GoPages.Proofs.Package.Resolved
import GoPages.Proofs.Signature.Slots

/-!
# Types in an application

The types in an application (`App.types`) are those of parameters and results, and those of the
fields of the session. They are resolved while the handlers are read, without looking at what goes
wrong, and checking the package has resolved them before. So they are resolved through and through
if the check finds nothing (`Analysis.isResolved_of_mem_types`).

Parameters and results are taken back to the methods of the package: through the handlers of an
owner (`Owner.hasSlot_handlers`) and through inheritance (`Setting.mem_slots_of_page`), which
changes no slot.
-/

namespace GoPages

/-! ### Types in an application -/

/-- The parameters and results of handlers. -/
def OwnHandlers.slots (hs : OwnHandlers) : List Slot :=
  hs.get.toList.flatMap Handler.slots ++ hs.actions.flatMap Handler.slots ++
    hs.eventHandlers.flatMap EventHandler.slots

/-- The parameters and results of all handlers, event handlers and hooks of an application. -/
def App.slots (app : App) : List Slot :=
  (app.owners.flatMap fun o => o.allHandlers.slots) ++
    (app.head.toList ++ app.recover500.toList).flatMap Hook.slots

/-- The types of parameters and results, and of the fields of the session. -/
def App.types (app : App) : List HostType :=
  (app.slots.map fun slot => slot.type.resolved) ++
    app.session.toList.flatMap fun session => session.fields.map StructFieldOf.type

/-! ### Where slots come from -/

/-- The slots of handlers are those of a GET, of an action or of an event handler. -/
private theorem OwnHandlers.mem_slots_iff {hs : OwnHandlers} {slot : Slot} :
    slot ∈ hs.slots ↔ (∃ h ∈ hs.get, slot ∈ h.slots) ∨ (∃ h ∈ hs.actions, slot ∈ h.slots) ∨
      ∃ h ∈ hs.eventHandlers, slot ∈ h.slots := by
  simp only [slots, List.mem_append, List.mem_flatMap, Option.mem_toList, Option.mem_def, or_assoc]

/-- Without plugins a handler has the parameters and results of its method, and no others. -/
theorem Owner.hasSlot_handlers {s : Setting} {o : Owner} {slot : Slot}
    (h : slot ∈ (o.handlers s []).slots) :
    ∃ m ∈ s.methodsOf o.typeName, m.HasSlot s.package slot := by
  have hread := o.areReadFrom_handlers s []
  have hrequest {a : Handler} {m : Method} (ha : a.IsReadFrom s o m) (hslot : slot ∈ a.bare.slots) :
      m.HasSlot s.package slot := by
    obtain ⟨method, name, ins, outs, -, rfl⟩ := ha
    exact Handler.hasSlot_read (s := s) hslot
  -- a handler without additions is its own bare one
  rw [← o.bare_handlers s [], OwnHandlers.mem_slots_iff] at h
  rcases h with ⟨a, ha, hslot⟩ | ⟨a, ha, hslot⟩ | ⟨e, he, hslot⟩
  · obtain ⟨b, hb, rfl⟩ := Option.map_eq_some_iff.mp ha
    obtain ⟨-, m, hm, hb⟩ := hread.get b hb
    exact ⟨m, hm, hrequest hb hslot⟩
  · obtain ⟨b, hb, rfl⟩ := List.mem_map.mp ha
    obtain ⟨-, m, hm, hb⟩ := hread.actions b hb
    exact ⟨m, hm, hrequest hb hslot⟩
  · obtain ⟨b, hb, rfl⟩ := List.mem_map.mp he
    obtain ⟨m, hm, -, b', ins, hb', rfl⟩ := hread.eventHandlers b hb
    obtain ⟨name, -, hread⟩ := Option.bind_eq_some_iff.mp hb'
    have hbare : b'.bare = b' := bare_of_eventHandler? hb'
    have hslot : slot ∈ b'.bare.slots := hslot
    rw [hbare] at hslot
    exact ⟨m, hm, EventHandler.hasSlot_read? hread hslot⟩

namespace Setting

variable {s : Setting} {plugins : List Plugin}

/-- A slot of an abstract page is one of a handler that an owner declares. -/
private theorem mem_slots_of_abstractPage {p : AbstractPage}
    (hp : p ∈ s.attachedAbstractPages plugins)
    {slot : Slot} (h : slot ∈ (Owner.abstractPage p).allHandlers.slots) :
    ∃ o : Owner, slot ∈ (o.handlers s plugins).slots := by
  obtain ⟨q, -, rfl⟩ := exists_abstractPage hp
  exact ⟨.abstractPage q, h⟩

/-- A page has its slots from itself and from abstract pages. -/
theorem mem_slots_of_page {p : Page} (hp : p ∈ (s.inheritedPages plugins).map Prod.fst)
    {slot : Slot} (h : slot ∈ (Owner.page p).allHandlers.slots) :
    ∃ o : Owner, slot ∈ (o.handlers s plugins).slots := by
  obtain ⟨q, -, m, rfl, hext⟩ := exists_extends hp
  rcases OwnHandlers.mem_slots_iff.mp h with ⟨a, ha, hslot⟩ | ⟨a, ha, hslot⟩ | ⟨e, he, hslot⟩
  · rcases hext.get a ha with hown | ⟨p, hp, b, hb, rfl⟩
    · exact ⟨.page q, OwnHandlers.mem_slots_iff.mpr (.inl ⟨a, hown, hslot⟩)⟩
    · exact mem_slots_of_abstractPage hp (OwnHandlers.mem_slots_iff.mpr (.inl ⟨b, hb, hslot⟩))
  · rcases hext.actions a ha with hown | ⟨p, hp, b, hb, rfl⟩
    · exact ⟨.page q, OwnHandlers.mem_slots_iff.mpr (.inr (.inl ⟨a, hown, hslot⟩))⟩
    · exact mem_slots_of_abstractPage hp
        (OwnHandlers.mem_slots_iff.mpr (.inr (.inl ⟨b, hb, hslot⟩)))
  · rcases hext.eventHandlers e he with hown | ⟨p, hp, b, hb, rfl⟩
    · exact ⟨.page q, OwnHandlers.mem_slots_iff.mpr (.inr (.inr ⟨e, hown, hslot⟩))⟩
    · exact mem_slots_of_abstractPage hp
        (OwnHandlers.mem_slots_iff.mpr (.inr (.inr ⟨b, hb, hslot⟩)))

private theorem mem_methodDecls_of_methodsOf {receiver : String} {m : Method}
    (hm : m ∈ s.methodsOf receiver) : m.decl ∈ s.package.methodDecls := by
  obtain ⟨decl, hdecl, rfl⟩ := List.mem_map.mp hm
  exact List.mem_of_mem_filter hdecl

/-- A slot of a hook is one of a method of the package. -/
private theorem hasSlot_of_hook? {isHook : String → Bool} {hook : Hook}
    (h : s.hook? isHook = some hook) {slot : Slot} (hslot : slot ∈ hook.slots) :
    ∃ m : Method, m.decl ∈ s.package.methodDecls ∧ m.HasSlot s.package slot := by
  obtain ⟨m, hm, rfl⟩ := Option.map_eq_some_iff.mp h
  have hmem := List.mem_of_mem_filter (List.mem_of_getLast? hm)
  exact ⟨m, mem_methodDecls_of_methodsOf hmem, Hook.hasSlot_read hslot⟩

/-- **Slots and methods.** Without plugins every slot of an application is a parameter or a result
of a method of the package. -/
theorem hasSlot_of_mem_slots {app : App} (happ : s.app? [] = some app) {slot : Slot}
    (h : slot ∈ app.slots) :
    ∃ m : Method, m.decl ∈ s.package.methodDecls ∧ m.HasSlot s.package slot := by
  have howner {o : Owner} (ho : slot ∈ (o.handlers s []).slots) :
      ∃ m : Method, m.decl ∈ s.package.methodDecls ∧ m.HasSlot s.package slot := by
    obtain ⟨m, hm, hslot⟩ := Owner.hasSlot_handlers ho
    exact ⟨m, mem_methodDecls_of_methodsOf hm, hslot⟩
  rw [App.slots, App.owners, pages_of_app? happ, abstractPages_of_app? happ, List.mem_append] at h
  rcases h with h | h
  · obtain ⟨o, ho, hslot⟩ := List.mem_flatMap.mp h
    rcases List.mem_append.mp ho with ho | ho
    · obtain ⟨p, hp, rfl⟩ := List.mem_map.mp ho
      obtain ⟨q, hq⟩ := mem_slots_of_page hp hslot
      exact howner hq
    · obtain ⟨p, hp, rfl⟩ := List.mem_map.mp ho
      obtain ⟨q, hq⟩ := mem_slots_of_abstractPage hp hslot
      exact howner hq
  · obtain ⟨hook, hhook, hslot⟩ := List.mem_flatMap.mp h
    obtain ⟨hhead, hrecover⟩ := hooks_of_app? happ
    rw [hhead, hrecover, List.mem_append, Option.mem_toList, Option.mem_toList] at hhook
    rcases hhook with hhook | hhook
    · exact hasSlot_of_hook? hhook hslot
    · exact hasSlot_of_hook? hhook hslot

end Setting

/-! ### Checked packages -/

section Check

variable {p : Package} (hcheck : p.check = [])
include hcheck

/-- A parameter or result of a checked package has a resolved type. -/
theorem Method.HasSlot.isResolved {m : Method} {slot : Slot} (h : m.HasSlot p slot)
    (hm : m.decl ∈ p.methodDecls) : slot.type.resolved.IsResolved := by
  obtain ⟨param, hparam, rfl⟩ := h
  have hdecls : m.params p ++ m.results p =
      m.resolved p (m.decl.decl.type.params ++ m.decl.decl.type.results) :=
    List.map_append.symm
  rw [hdecls] at hparam
  obtain ⟨decl, hdecl, rfl⟩ := List.mem_map.mp hparam
  exact Package.isResolved_of_mem_params hcheck hm hdecl

/-- The fields of the session of a checked package have resolved types. -/
theorem Setting.isResolved_of_session? {c : Conventions} {session : SessionShape}
    (h : (⟨p, c⟩ : Setting).session? = some session) : ∀ f ∈ session.fields, f.type.IsResolved := by
  obtain ⟨d, -, -, fields, hfields, rfl⟩ := exists_of_session? h
  exact Package.isResolved_of_underlying hcheck hfields

end Check

namespace Analysis

/-- **No type in an application is unknown**, at any depth, if there are no plugins and checking the
types of the package finds nothing. -/
theorem isResolved_of_mem_types {c : Conventions} {sources : List Source} {app : App}
    (happ : (ofSources c [] sources).app = some app)
    (hchecked : (ofSources c [] sources).diagnostics.withCode "PA-E002" = []) :
    ∀ t ∈ app.types, .invalid ∉ t.parts := by
  obtain ⟨p, -, hofPackage, happ⟩ := exists_package happ
  have hcheck : p.check = [] := by
    have hperm := perm_map_withCode .types rfl c [] p
    rw [hofPackage] at hchecked
    rw [hchecked] at hperm
    exact List.map_eq_nil_iff.mp (List.map_eq_nil_iff.mp (List.nil_perm.mp hperm))
  intro t ht
  rcases List.mem_append.mp ht with ht | ht
  · obtain ⟨slot, hslot, rfl⟩ := List.mem_map.mp ht
    obtain ⟨m, hm, hslot⟩ := Setting.hasSlot_of_mem_slots happ hslot
    exact hslot.isResolved hcheck hm
  · obtain ⟨session, hsession, ht⟩ := List.mem_flatMap.mp ht
    obtain ⟨f, hf, rfl⟩ := List.mem_map.mp ht
    rw [Setting.session_of_app? happ, Option.mem_toList] at hsession
    exact Setting.isResolved_of_session? hcheck hsession f hf

end Analysis

/-! ### A page with a session -/

/-- A page with a session whose type is another type of the package. There is no index page. -/
def memberPage : List (String × List String) :=
  [("app.go",
    ["package app",
     "import \"net/http\"",
     "import \"github.com/a-h/templ\"",
     "type App struct\x7b\x7d",
     "func (*App) Head(*http.Request) (body templ.Component) \x7b\x7d",
     "type Session = Visit",
     "type Visit struct\x7b UserID string; Seen map[Kind][]*Member[int] \x7d",
     "type Kind string",
     "type Member[T any] struct\x7b Last T \x7d",
     "// PageMember is /member/\x7bid\x7d",
     "type PageMember struct\x7b App *App \x7d",
     "func (PageMember) GET(r *http.Request, session Session, path struct\x7b ID Kind `path:\"id\"` \x7d) "
       ++ "(body templ.Component) \x7b\x7d"])]

/-- The types in the application, as they are written. Those of the session come last. -/
def memberTypes : List String :=
  ["*net/http.Request", "Session", "struct\x7bID Kind \"path:\\\"id\\\"\"\x7d",
    "github.com/a-h/templ.Component", "*net/http.Request", "github.com/a-h/templ.Component",
    "string", "map[Kind][]*Member[int]"]

set_option maxRecDepth 100000 in
/-- No type of the package has a problem, and these are the types of its application. -/
private theorem exists_app_memberPage :
    ∃ app, (Analysis.ofSources .standard [] (sourcesOf memberPage)).app = some app ∧
      (Analysis.ofSources .standard [] (sourcesOf memberPage)).diagnostics.withCode "PA-E002" = [] ∧
      app.types.map HostType.render = memberTypes := by
  -- the analysis is evaluated once for all that is said about it
  have hall : ((Analysis.ofSources .standard [] (sourcesOf memberPage)).app.any fun app =>
      ((Analysis.ofSources .standard [] (sourcesOf memberPage)).diagnostics.withCode
        "PA-E002").isEmpty && app.types.map HostType.render == memberTypes) = true := by
    rw [Analysis.ofSources, Package.load_sourcesOf]
    decide +kernel
  rw [Option.any_eq_true] at hall
  obtain ⟨app, happ, hrest⟩ := hall
  rw [Bool.and_eq_true, List.isEmpty_iff, beq_iff_eq] at hrest
  exact ⟨app, happ, hrest⟩

/-- Every part of these types has a meaning. Other things are found in the application. -/
theorem Analysis.isResolved_of_mem_types_memberPage :
    ∃ app, (ofSources .standard [] (sourcesOf memberPage)).app = some app ∧
      (ofSources .standard [] (sourcesOf memberPage)).diagnostics.withCode "PA-E002" = [] ∧
      app.types.map HostType.render = memberTypes ∧ ∀ t ∈ app.types, .invalid ∉ t.parts := by
  obtain ⟨app, happ, hchecked, htypes⟩ := exists_app_memberPage
  exact ⟨app, happ, hchecked, htypes, isResolved_of_mem_types happ hchecked⟩

end GoPages
