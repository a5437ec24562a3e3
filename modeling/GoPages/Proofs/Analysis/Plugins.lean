import GoPages.Proofs.Analysis.Owners
import GoPages.Proofs.Inheritance.Bare

/-!
# Plugins only add

Two analyses of a package, one with plugins and one without, find the same and give the same
application but for what the plugins have added to handlers (`Setting.findings_nil`,
`Setting.map_bare_app?`). Each part of an analysis is shown to have no use for additions: methods
(`Owner.bare_handlers`), inheritance (`Page.inherit_bare`), and the checks across declarations
(`Check.findings_map_bare`).

What the plugins have added is said by `App.IsExtended`: to a handler that a method declares, what
they give for it as it has been attached, in their order; and to an inherited handler, what has been
added to the handler of the abstract page. `Analysis.plugins_only_add` puts both together.
-/

namespace GoPages

/-- The application without additions to handlers. -/
def App.bare (app : App) : App :=
  { app with
    pages := app.pages.map Page.bare
    abstractPages := app.abstractPages.map AbstractPage.bare }

/-! ### Checks across declarations -/

namespace Check

/-- The check of the handler without additions. -/
def bare : Check → Check
  | route receiver h => route receiver h.bare
  | references receiver h => references receiver h.bare

/-- No check looks at additions. -/
theorem findings_map_bare (s : Setting) (invalidPaths : List Location)
    (seen : List (Location × String)) (checks : List Check) :
    findings s invalidPaths seen (checks.map bare) = findings s invalidPaths seen checks := by
  fun_induction findings s invalidPaths seen checks with
  | case1 => rfl
  | case2 seen receiver h rest ih =>
    rw [List.map_cons, bare, findings, ih]
    rfl
  | case3 seen receiver h rest hcond ih =>
    have hbare : comparable invalidPaths h.bare && !seen.contains (key h.bare) := hcond
    rw [List.map_cons, bare, findings, if_pos hbare]
    exact congrArg (h.routeVarFindings receiver ++ ·) ih
  | case4 seen receiver h rest hcond ih =>
    have hbare : ¬ (comparable invalidPaths h.bare && !seen.contains (key h.bare)) := hcond
    rw [List.map_cons, bare, findings, if_neg hbare, ih]

/-- A map goes through the GET and the actions alike. -/
theorem requests_map (f : Handler → Handler) (get : Option Handler) (actions : List Handler) :
    (get.map f).toList ++ actions.map f = (get.toList ++ actions).map f := by
  rw [List.map_append, Option.toList_map]

private theorem ofPage_bare (p : Page) : ofPage p.bare = (ofPage p).map bare := by
  have hhandlers : p.bare.requestHandlers = p.requestHandlers.map Handler.bare :=
    requests_map Handler.bare p.get p.actions
  rw [ofPage, ofPage, hhandlers, List.filter_map, List.map_append]
  simp only [List.map_map]
  rfl

private theorem ofAbstractPage_bare (p : AbstractPage) :
    ofAbstractPage p.bare = (ofAbstractPage p).map bare := by
  have hhandlers : p.bare.requestHandlers = p.requestHandlers.map Handler.bare :=
    requests_map Handler.bare p.get p.actions
  rw [ofAbstractPage, ofAbstractPage, hhandlers, List.map_map, List.map_map]
  rfl

end Check

/-! ### Parts of an analysis -/

namespace Setting

variable (s : Setting) (plugins : List Plugin)

private theorem map_bare_attachedPages :
    (s.attachedPages plugins).map Page.bare = s.attachedPages [] := by
  rw [attachedPages, attachedPages, List.map_map]
  refine List.map_congr_left fun p _ => ?_
  rw [Function.comp_apply, Page.bare_withHandlers, Owner.bare_handlers]

private theorem map_bare_attachedAbstractPages :
    (s.attachedAbstractPages plugins).map AbstractPage.bare = s.attachedAbstractPages [] := by
  rw [attachedAbstractPages, attachedAbstractPages, List.map_map]
  refine List.map_congr_left fun p _ => ?_
  rw [Function.comp_apply, AbstractPage.bare_withHandlers, Owner.bare_handlers]

/-- The pages inherit the same, with the same conflicts. -/
theorem inheritedPages_nil :
    s.inheritedPages [] = (s.inheritedPages plugins).map fun r => (r.1.bare, r.2) := by
  rw [inheritedPages, inheritedPages, ← map_bare_attachedPages s plugins,
    ← map_bare_attachedAbstractPages s plugins, List.map_map, List.map_map]
  exact List.map_congr_left fun p _ => Page.inherit_bare _ p

/-- Pages inherit the same without plugins, but for what plugins have added. -/
private theorem map_fst_inheritedPages_nil :
    (s.inheritedPages []).map Prod.fst =
      ((s.inheritedPages plugins).map Prod.fst).map Page.bare := by
  rw [inheritedPages_nil s plugins, List.map_map, List.map_map]
  rfl

/-- The checks across declarations do not look at what plugins have added. -/
private theorem crossFindings_bare (pages : List Page) (abstractPages : List AbstractPage) :
    s.crossFindings (pages.map Page.bare) (abstractPages.map AbstractPage.bare) =
      s.crossFindings pages abstractPages := by
  have hpages : (pages.map Page.bare).flatMap Check.ofPage =
      (pages.flatMap Check.ofPage).map Check.bare := by
    rw [List.flatMap_map, List.map_flatMap]
    exact List.flatMap_congr fun p _ => Check.ofPage_bare p
  have habstract : (abstractPages.map AbstractPage.bare).flatMap Check.ofAbstractPage =
      (abstractPages.flatMap Check.ofAbstractPage).map Check.bare := by
    rw [List.flatMap_map, List.map_flatMap]
    exact List.flatMap_congr fun p _ => Check.ofAbstractPage_bare p
  rw [crossFindings, crossFindings, hpages, habstract, ← List.map_append, Check.findings_map_bare]

private theorem missingFindings_bare (pages : List Page) :
    s.missingFindings (pages.map Page.bare) = s.missingFindings pages := by
  have hget : (fun p : Page => p.get.isNone) ∘ Page.bare = fun p => p.get.isNone :=
    funext fun p => Option.isNone_map
  rw [missingFindings, missingFindings, List.filter_map, hget, List.map_map, List.any_map]
  rfl

/-- What is found about methods does not depend on plugins. -/
private theorem methodFindings_nil : s.methodFindings [] = s.methodFindings plugins :=
  List.flatMap_congr fun o _ => (o.findings_eq s plugins).symm

/-- The same is found with plugins and without them. -/
theorem findings_nil : s.findings [] = s.findings plugins := by
  have hconflicts : (s.inheritedPages []).flatMap Prod.snd =
      (s.inheritedPages plugins).flatMap Prod.snd := by
    rw [inheritedPages_nil s plugins, List.flatMap_map]
  simp only [findings]
  rw [methodFindings_nil s plugins, hconflicts, map_fst_inheritedPages_nil s plugins,
    ← map_bare_attachedAbstractPages s plugins, crossFindings_bare, missingFindings_bare]

/-- Without their additions, plugins change nothing about the application. -/
theorem map_bare_app? : (s.app? plugins).map App.bare = s.app? [] := by
  rw [app?, app?, Option.map_map]
  refine congrArg (Option.map · _) (funext fun d => ?_)
  rw [Function.comp_apply, App.bare, map_fst_inheritedPages_nil s plugins,
    map_bare_attachedAbstractPages]

end Setting

/-! ### What plugins add -/

/-- The handlers of requests. -/
def OwnHandlers.requestHandlers (hs : OwnHandlers) : List Handler := hs.get.toList ++ hs.actions

namespace Owner

variable {s : Setting} {plugins : List Plugin} {o : Owner} {hs : OwnHandlers}

/-- A method of the owner declares the handler. To the handler as it is attached after those of
other methods, and without any additions, the plugins have added what they give for it, in their
order. -/
def Adds (s : Setting) (plugins : List Plugin) (o : Owner) (h : Handler) : Prop :=
  ∃ before m after attached, s.methodsOf o.typeName = before ++ m :: after ∧
    o.handler? s m = some attached ∧ attached.pluginInputs = [] ∧ attached.pluginOutputs = [] ∧
    h = { attached with
      pluginInputs := plugins.flatMap (·.inputs (o.contextAfter s plugins before attached))
      pluginOutputs := plugins.flatMap (·.outputs (o.contextAfter s plugins before attached)) }

/-- A method of the owner declares the event handler. To the event handler as it is attached after
those of other methods, and without any additions, the plugins have added what they give for it, in
their order. -/
def AddsEvent (s : Setting) (plugins : List Plugin) (o : Owner) (h : EventHandler) : Prop :=
  ∃ before m after attached, s.methodsOf o.typeName = before ++ m :: after ∧
    eventHandler? s m = some attached ∧ attached.pluginInputs = [] ∧
    h = { attached with
      pluginInputs :=
        plugins.flatMap (·.eventHandlerInputs (o.eventContextAfter s plugins before attached)) }

/-- What has been added to an own handler is what the plugins give for it. -/
private theorem adds_of_mem_handlers {h : Handler}
    (hh : h ∈ (o.handlers s plugins).requestHandlers) : o.Adds s plugins h := by
  have hturn : h ∈ inTurn (o.handlerInTurn s plugins) (s.methodsOf o.typeName) := by
    rw [handlers_eq_attached, attached_eq] at hh
    rcases List.mem_append.mp hh with hget | haction
    · exact List.mem_of_find?_eq_some (Option.mem_toList.mp hget)
    · exact List.mem_of_mem_filter haction
  obtain ⟨before, m, after, hsplit, hgive⟩ := mem_inTurn_iff.mp hturn
  obtain ⟨attached, hread, rfl⟩ := Option.map_eq_some_iff.mp hgive
  have hbare := bare_of_handler? hread
  have hinputs : attached.pluginInputs = [] := by rw [← hbare, Handler.bare]
  have houtputs : attached.pluginOutputs = [] := by rw [← hbare, Handler.bare]
  refine ⟨before, m, after, attached, hsplit, hread, hinputs, houtputs, ?_⟩
  simp [HandlerContext.extended, contextAfter, hinputs, houtputs]

private theorem addsEvent_of_mem_handlers {h : EventHandler}
    (hh : h ∈ (o.handlers s plugins).eventHandlers) : o.AddsEvent s plugins h := by
  rw [handlers_eq_attached, attached_eq] at hh
  obtain ⟨before, m, after, hsplit, hgive⟩ := mem_inTurn_iff.mp hh
  obtain ⟨attached, hread, rfl⟩ := Option.map_eq_some_iff.mp hgive
  have hread := (Option.filter_eq_some_iff.mp hread).1
  have hinputs : attached.pluginInputs = [] := by
    rw [← bare_of_eventHandler? hread, EventHandler.bare]
  refine ⟨before, m, after, attached, hsplit, hread, hinputs, ?_⟩
  simp [EventHandlerContext.extended, eventContextAfter, hinputs]

/-- Plugins see the owner with the handlers that are attached, whatever handlers it has. -/
theorem adds_withHandlers {h : Handler} :
    (o.withHandlers hs).Adds s plugins h ↔ o.Adds s plugins h := by
  cases o <;> exact .rfl

private theorem addsEvent_withHandlers {h : EventHandler} :
    (o.withHandlers hs).AddsEvent s plugins h ↔ o.AddsEvent s plugins h := by
  cases o <;> exact .rfl

end Owner

/-- What plugins have added to the handlers of an application: to those that its pages and abstract
pages declare, what they give for them, and to those that its pages inherit, what they have added to
the handlers of the abstract pages. -/
structure App.IsExtended (s : Setting) (plugins : List Plugin) (app : App) : Prop where
  requestHandlers : ∀ o ∈ app.owners, ∀ h ∈ o.own.requestHandlers, o.Adds s plugins h
  eventHandlers : ∀ o ∈ app.owners, ∀ h ∈ o.own.eventHandlers, o.AddsEvent s plugins h
  inheritedGet : ∀ p ∈ app.pages, ∀ h ∈ p.get, h.inheritedFrom ≠ none →
    ∃ a ∈ app.abstractPages, ∃ b ∈ a.get, h = { b.inheritedBy a.typeName with route := p.route }
  inheritedActions : ∀ p ∈ app.pages, ∀ h ∈ p.actions, h.inheritedFrom ≠ none →
    ∃ a ∈ app.abstractPages, ∃ b ∈ a.actions, h = b.inheritedBy a.typeName
  inheritedEventHandlers : ∀ p ∈ app.pages, ∀ h ∈ p.eventHandlers, h.inheritedFrom ≠ none →
    ∃ a ∈ app.abstractPages, ∃ b ∈ a.eventHandlers, h = b.inheritedBy a.typeName

/-- An application is extended as its setting and the plugins say. -/
private theorem Setting.isExtended_of_app? {s : Setting} {plugins : List Plugin} {app : App}
    (happ : s.app? plugins = some app) : app.IsExtended s plugins := by
  refine ⟨fun o ho h hh => ?_, fun o ho h hh => ?_, fun p hp h hh hmark => ?_,
    fun p hp h hh hmark => ?_, fun p hp h hh hmark => ?_⟩
  · obtain ⟨⟨q, hs, -, rfl⟩, hown⟩ := own_of_mem_owners happ ho
    rw [hown, Owner.handlers_withHandlers] at hh
    exact Owner.adds_withHandlers.mpr (Owner.adds_of_mem_handlers hh)
  · obtain ⟨⟨q, hs, -, rfl⟩, hown⟩ := own_of_mem_owners happ ho
    rw [hown, Owner.handlers_withHandlers] at hh
    exact Owner.addsEvent_withHandlers.mpr (Owner.addsEvent_of_mem_handlers hh)
  -- what has a mark has been taken from an abstract page as it is
  all_goals
    rw [pages_of_app? happ] at hp
    rw [abstractPages_of_app? happ]
  · exact (get_unmarked_or_inherited hp hh).resolve_left hmark
  · exact (action_unmarked_or_inherited hp hh).resolve_left hmark
  · exact (eventHandler_unmarked_or_inherited hp hh).resolve_left hmark

/-- **Plugins only add.** With plugins the same is found as without them, and the application is the
same but for additions to its handlers. The additions are what the plugins give for the handlers as
they are attached, and inherited handlers have those of the abstract pages. -/
theorem Analysis.plugins_only_add (c : Conventions) (plugins : List Plugin) (p : Package) :
    (ofPackage c plugins p).diagnostics = (ofPackage c [] p).diagnostics ∧
      (ofPackage c plugins p).app.map App.bare = (ofPackage c [] p).app ∧
      ∀ app, (ofPackage c plugins p).app = some app → app.IsExtended ⟨p, c⟩ plugins := by
  refine ⟨?_, Setting.map_bare_app? _ _, fun app happ => Setting.isExtended_of_app? happ⟩
  rw [ofPackage, ofPackage, Setting.findings_nil _ plugins]

/-- The plugin that adds a parameter of this name to actions. -/
def Plugin.parameter (name : String) : Plugin :=
  { Plugin.idle with
    actionInputs := fun c => [⟨name, ⟨.basic "string", "string"⟩, c.handler.location⟩] }

set_option maxRecDepth 100000 in
/-- A page inherits an action with the parameters of two plugins. -/
theorem exists_app_parameters :
    ∃ p app, (Analysis.ofPackage .standard [.parameter "token", .parameter "trace"] p).app =
      some app ∧ ∃ q ∈ app.pages, ∃ h ∈ q.actions, h.inheritedFrom = some "Base" ∧
        h.pluginInputs.map Slot.name = ["token", "trace"] := by
  have hall : ((Analysis.ofSources .standard [.parameter "token", .parameter "trace"]
      (sourcesOf sharedSave)).app.any fun app => app.pages.any fun q => q.actions.any fun h =>
        h.inheritedFrom == some "Base" && h.pluginInputs.map Slot.name == ["token", "trace"]) =
      true := by
    rw [Analysis.ofSources, Package.load_sourcesOf]
    decide +kernel
  obtain ⟨app, happ, hadded⟩ := (Option.any_eq_true _ _).mp hall
  obtain ⟨p, -, heq, -⟩ := Analysis.exists_package happ
  simp only [List.any_eq_true, Bool.and_eq_true, beq_iff_eq] at hadded
  exact ⟨p, app, heq ▸ happ, hadded⟩

/-- Two plugins that add a parameter each, and an action that inherits both in their order. -/
theorem Analysis.plugins_only_add_parameters :
    ∃ p app, (ofPackage .standard [.parameter "token", .parameter "trace"] p).app = some app ∧
      (∃ q ∈ app.pages, ∃ h ∈ q.actions, h.inheritedFrom = some "Base" ∧
        h.pluginInputs.map Slot.name = ["token", "trace"]) ∧
      (ofPackage .standard [] p).app = some app.bare ∧
      app.IsExtended ⟨p, .standard⟩ [.parameter "token", .parameter "trace"] := by
  obtain ⟨p, app, happ, hadded⟩ := exists_app_parameters
  obtain ⟨-, hbare, hextended⟩ :=
    plugins_only_add .standard [.parameter "token", .parameter "trace"] p
  rw [happ, Option.map_some] at hbare
  exact ⟨p, app, happ, hadded, hbare.symm, hextended app happ⟩

end GoPages
