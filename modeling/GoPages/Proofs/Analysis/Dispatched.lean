import GoPages.Proofs.Analysis.Events
import GoPages.Proofs.Signature.Slots

/-!
# Dispatched types that are no events

The types that a handler dispatches are known by their texts when they are compared with the event
types. A type is found to be no event exactly if neither it, nor what it points to, stands for an
event type, unless it is a type parameter: that has its name as its text, and the name may be that
of an event type.

* `Scope.Denotes` says of a type that it can be written in a scope. The parameters of a dispatch
  function can (`Scope.denotes_of_mem_params`), so no predeclared type among them has the name of an
  event.
* `Setting.isEventType_eventName_of_denotes`: which types have the text of an event type.
* `Check.filter_findings`: of all comparisons, those of dispatched types report their code alone.
* `Analysis.reportsNotEvents` is the main result.
-/

namespace GoPages

/-! ### Types that can be written -/

namespace Scope

variable {s : Scope} {type : HostType}

/-- The type can be written in the scope. -/
def Denotes (s : Scope) (type : HostType) : Prop := ∃ expr, s.resolve expr = type

/-- What a pointer type points to can be written, and so can the parameters of a function type. -/
theorem denotes_of_resolve : ∀ expr : TypeExpr,
    (∀ elem, s.resolve expr = .pointer elem → s.Denotes elem) ∧
      ∀ params results variadic, s.resolve expr = .func params results variadic →
        ∀ type ∈ params, s.Denotes type
  | .ident id => by
    cases htype : s.typeOfName? id.name with
    | none => simp [resolve, htype]
    | some type =>
      rw [resolve, htype, Option.getD_some]
      rcases typeOfName?_cases htype with rfl | rfl | ⟨n, rfl⟩ | ⟨empty, rfl⟩ | ⟨package, rfl⟩ <;>
        simp
  | .generic base args => by
    have ih := denotes_of_resolve base
    rw [resolve]
    cases hbase : s.resolve base <;> simp_all [instantiate]
  | .qualified package id => by
    rw [resolve]
    split <;> simp
  | .pointer _ elem => by
    refine ⟨?_, by simp [resolve]⟩
    rintro _ heq
    cases heq
    exact ⟨elem, rfl⟩
  | .func ⟨params, results, _⟩ => by
    refine ⟨by simp [resolve], ?_⟩
    rintro _ _ _ heq type htype
    rw [resolve, HostType.func.injEq] at heq
    obtain ⟨rfl, -⟩ := heq
    induction params with
    | nil => cases htype
    | cons param params ih =>
      rcases List.mem_cons.mp htype with rfl | htype
      · exact ⟨_, rfl⟩
      · exact ih htype
  | .slice _ _ | .ellipsis _ _ | .array _ _ _ | .map _ _ _ | .chan _ _ _ | .struct _ _
  | .interface _ _ => by simp [resolve]

/-- What a pointer points to can be written if the pointer can. -/
theorem Denotes.stripPointer (h : s.Denotes type) : s.Denotes type.stripPointer := by
  cases type with
  | pointer elem =>
    obtain ⟨expr, hexpr⟩ := h
    exact (denotes_of_resolve expr).1 elem hexpr
  | _ => exact h

/-- The parameters of a function type can be written if the function type can. -/
theorem Denotes.dispatchTypes {t : HostType} (h : s.Denotes type) (ht : t ∈ type.dispatchTypes) :
    s.Denotes t := by
  obtain ⟨expr, rfl⟩ := h
  unfold HostType.dispatchTypes at ht
  split at ht
  · next params variadic hfunc => exact (denotes_of_resolve expr).2 _ _ _ hfunc t ht
  · cases ht

end Scope

/-! ### Texts of dispatched types -/

namespace Setting

/-- Does the type, or what it points to, stand for an event type? -/
def isEvent (s : Setting) (type : HostType) : Bool := (s.eventOf? type).isSome

/-- Is the type, or what it points to, a type parameter with the name of an event type? -/
def hidesEvent (s : Setting) (type : HostType) : Bool :=
  match type.stripPointer with
  | .typeParam name => s.isEventType name
  | _ => false

/-- Is the type taken for an event? -/
def passesAsEvent (s : Setting) (type : HostType) : Bool := s.isEvent type || s.hidesEvent type

end Setting

namespace Package

variable {p : Package} {scope : Scope} {type : HostType}

/-- A type at the end of aliases can be written in some scope if the type at their beginning can. -/
theorem exists_denotes_unalias (h : scope.Denotes type) :
    ∃ scope : Scope, scope.Denotes (p.unalias type) := by
  rw [unalias]
  rcases p.unaliasFrom_cases p.typeDecls type with heq | ⟨file, expr, heq⟩
  · exact ⟨scope, by rwa [heq]⟩
  · exact ⟨p.scope file, expr, heq.symm⟩

/-- Aliases end in a type parameter only if there are none. -/
theorem unalias_eq_typeParam_iff {name : String} :
    p.unalias type = .typeParam name ↔ type = .typeParam name := by
  constructor
  · intro h
    rw [unalias] at h
    rcases p.unaliasFrom_cases p.typeDecls type with heq | ⟨file, expr, heq⟩
    · exact heq ▸ h
    · exact absurd (heq ▸ h) (Scope.resolve_ne_typeParam rfl name expr)
  · rintro rfl
    rw [unalias, unaliasFrom_eq]
    rfl

end Package

/-- **Texts of dispatched types.** A type that can be written has the name of an event type exactly
if it is one, or leads to one, or is a type parameter of this name. -/
theorem Setting.isEventType_eventName_of_denotes {p : Package} {scope : Scope} {type : HostType}
    (h : scope.Denotes type) :
    (⟨p, .standard⟩ : Setting).isEventType (Dispatch.eventName p type) =
      (⟨p, .standard⟩ : Setting).passesAsEvent type := by
  rw [passesAsEvent, isEvent, eventOf?, Option.isSome_filter, Dispatch.eventName, hidesEvent]
  cases hlocal : (p.unalias type.stripPointer).localName with
  | some last =>
    have hparam (name : String) : type.stripPointer ≠ .typeParam name := by
      intro heq
      rw [Package.unalias_eq_typeParam_iff.mpr heq] at hlocal
      cases hlocal
    cases hstrip : type.stripPointer <;> simp_all
  | none =>
    rw [Option.getD_none, Option.any_none, Bool.false_or]
    split
    · next name hname => rw [Package.unalias_eq_typeParam_iff.mpr hname, HostType.render]
    · next hparam =>
      -- aliases that do not end at a declared type end at a type that can be written, whose text is
      -- no event name
      obtain ⟨final, expr, hexpr⟩ := Package.exists_denotes_unalias (p := p) h.stripPointer
      have hname : isEventName (p.unalias type.stripPointer).render = false :=
        HostType.isEventName_render hlocal
          (fun name heq => hparam name (Package.unalias_eq_typeParam_iff.mp heq))
          fun name heq => Scope.isEventName_of_resolve name expr (hexpr.trans heq)
      rw [isEventType_standard, hname, Bool.false_and]

/-! ### Handlers -/

/-- What is to be reported about the types that a handler dispatches, where some are accepted. -/
def Handler.notEvents (p : Package) (accepted : HostType → Bool) (receiver : String) (h : Handler) :
    List Finding :=
  h.inputs.dispatch.toList.flatMap fun slot =>
    (slot.type.resolved.dispatchTypes.filter fun type => !accepted type).map fun type =>
      (slot.location, .dispatchParamNotEvent receiver h.methodName (Dispatch.eventName p type))

/-- What is found about dispatched types, for a handler as its method declares it. -/
theorem Handler.IsReadFrom.dispatchFindings_eq {p : Package} {o : Owner} {m : Method} {h : Handler}
    (hread : h.IsReadFrom ⟨p, .standard⟩ o m) (receiver : String) :
    h.dispatchFindings ⟨p, .standard⟩ receiver =
      h.notEvents p (Setting.passesAsEvent ⟨p, .standard⟩) receiver := by
  have hevents := hread.dispatchedEvents_eq
  rw [dispatchTypes] at hevents
  rw [dispatchFindings, notEvents]
  cases hdispatch : h.inputs.dispatch with
  | none => rfl
  | some slot =>
    -- the parameter is written in the signature of the method, and so are the types in it
    have hslot : m.HasSlot p slot := by
      obtain ⟨method, name, ins, outs, -, rfl⟩ := hread
      refine HandlerInputs.hasSlot_read (s := ⟨p, .standard⟩) ?_
      have hsome : (HandlerInputs.read ⟨p, .standard⟩ m).dispatch = some slot := hdispatch
      simp [HandlerInputs.slots, List.reduceOption_mem_iff, hsome]
    obtain ⟨param, hparam, rfl⟩ := hslot
    have hdenotes : (p.methodScope m.decl).Denotes param.type := by
      rw [Method.params, Method.results, Method.resolved, Method.resolved, ← List.map_append,
        List.mem_map] at hparam
      obtain ⟨decl, -, rfl⟩ := hparam
      exact ⟨_, rfl⟩
    rw [hdispatch, Option.toList_some, List.flatMap_singleton] at hevents
    rw [Option.toList_some, List.flatMap_singleton, hevents, List.filter_map]
    dsimp only
    rw [List.map_map]
    refine congrArg (List.map _) (List.filter_congr fun type htype => ?_)
    rw [Function.comp_apply,
      Setting.isEventType_eventName_of_denotes (hdenotes.dispatchTypes htype)]

/-! ### Comparisons -/

/-- The code belongs to this diagnostic alone. -/
private theorem AnalysisError.code_eq_dispatchParamNotEvent_iff {e : AnalysisError} :
    e.code = "PA-E403" ↔
      ∃ receiver method name, e = .dispatchParamNotEvent receiver method name := by
  have hcode : (dispatchParamNotEvent "" "" "").code = "PA-E403" := by
    rw [code, number]
    decide
  rw [← hcode, code_eq_code_iff]
  cases e <;> simp [number]

namespace Check

/-- What a check finds about dispatched types. -/
def dispatchFindings (s : Setting) : Check → List Finding
  | route _ _ => []
  | references receiver h => h.dispatchFindings s receiver

/-- **The findings of checks with the code** of dispatched types are what the single checks find
about dispatched types. -/
theorem filter_findings (s : Setting) (invalidPaths : List Location)
    (seen : List (Location × String)) (checks : List Check) :
    ((findings s invalidPaths seen checks).filter fun f => f.2.code = "PA-E403") =
      checks.flatMap (dispatchFindings s) := by
  -- each of the three checks of a handler has a code of its own
  have hdispatch (receiver : String) (h : Handler) :
      ((h.dispatchFindings s receiver).filter fun f => f.2.code = "PA-E403") =
        h.dispatchFindings s receiver := by
    refine List.filter_eq_self.mpr fun f hf => ?_
    rw [Handler.dispatchFindings] at hf
    split at hf
    · cases hf
    · obtain ⟨name, -, rfl⟩ := List.mem_map.mp hf
      simp [AnalysisError.code_eq_dispatchParamNotEvent_iff]
  have hreflect (receiver : String) (h : Handler) :
      ((h.reflectFindings receiver).filter fun f => f.2.code = "PA-E403") = [] := by
    refine List.filter_eq_nil_iff.mpr fun f hf => ?_
    rw [Handler.reflectFindings] at hf
    split at hf
    · cases hf
    · obtain ⟨name, -, rfl⟩ := List.mem_map.mp hf
      simp [AnalysisError.code_eq_dispatchParamNotEvent_iff]
  have hroute (receiver : String) (h : Handler) :
      ((h.routeVarFindings receiver).filter fun f => f.2.code = "PA-E403") = [] := by
    refine List.filter_eq_nil_iff.mpr fun f hf => ?_
    rw [Handler.routeVarFindings, List.mem_append] at hf
    rcases hf with hf | hf <;>
    · obtain ⟨name, -, rfl⟩ := List.mem_map.mp hf
      simp [AnalysisError.code_eq_dispatchParamNotEvent_iff]
  fun_induction findings s invalidPaths seen checks with
  | case1 => rfl
  | case2 seen receiver h rest ih =>
    rw [Handler.referenceFindings, List.filter_append, List.filter_append, hdispatch, hreflect, ih,
      List.append_nil]
    rfl
  | case3 seen receiver h rest hcond ih => rw [List.filter_append, hroute, ih]; rfl
  | case4 seen receiver h rest hcond ih => exact ih

/-- For a page, these are the findings about the handlers that it declares itself. -/
theorem flatMap_ofPage (s : Setting) (page : Page) :
    (ofPage page).flatMap (dispatchFindings s) =
      ((Owner.page page).own.get.toList ++ (Owner.page page).own.actions).flatMap fun h =>
        h.dispatchFindings s page.typeName := by
  have hown : (page.requestHandlers.filter fun h => h.inheritedFrom.isNone) =
      (Owner.page page).own.get.toList ++ (Owner.page page).own.actions := by
    rw [Page.requestHandlers, List.filter_append, Owner.own, Owner.allHandlers,
      OwnHandlers.declared, Option.toList_filter]
  have hroutes : (page.requestHandlers.map fun h =>
      route (h.inheritedFrom.getD page.typeName) h).flatMap (dispatchFindings s) = [] := by
    simp [List.flatMap_map, dispatchFindings]
  rw [ofPage, List.flatMap_append, hroutes, List.nil_append, List.flatMap_map, hown]
  rfl

end Check

/-! ### Applications -/

/-- What is to be reported about dispatched types in an application: once for every type that a
handler of a page or an abstract page dispatches and that is not accepted, at the dispatch
function. -/
def App.notEvents (p : Package) (accepted : HostType → Bool) (app : App) : List Finding :=
  app.owners.flatMap fun o => (o.own.get.toList ++ o.own.actions).flatMap fun h =>
    h.notEvents p accepted o.typeName

namespace Setting

variable {p : Package} {plugins : List Plugin} {app : App}

/-- The findings about dispatched types are those about what pages and abstract pages declare. -/
theorem filter_findings_notEvent (happ : (⟨p, .standard⟩ : Setting).app? plugins = some app) :
    (((⟨p, .standard⟩ : Setting).findings plugins).filter fun f => f.2.code = "PA-E403") =
      app.notEvents p (passesAsEvent ⟨p, .standard⟩) := by
  -- the code is one of the pass that compares references
  have hpass (f : Finding) : decide (f.2.code = "PA-E403") =
      (decide (f.2.code = "PA-E403") && decide (f.2.pass = .references)) := by
    by_cases hcode : f.2.code = "PA-E403"
    · obtain ⟨receiver, method, name, heq⟩ :=
        AnalysisError.code_eq_dispatchParamNotEvent_iff.mp hcode
      simp [heq, AnalysisError.pass]
    · simp [hcode]
  have habstract : ∀ a ∈ app.abstractPages, (Check.ofAbstractPage a).flatMap
      (Check.dispatchFindings ⟨p, .standard⟩) =
        ((Owner.abstractPage a).own.get.toList ++ (Owner.abstractPage a).own.actions).flatMap
          fun h => h.dispatchFindings ⟨p, .standard⟩ a.typeName := by
    intro a ha
    rw [abstractPages_of_app? happ] at ha
    obtain ⟨q, -, rfl⟩ := exists_abstractPage ha
    have hown : ((Owner.abstractPage q).withHandlers
        ((Owner.abstractPage q).handlers ⟨p, .standard⟩ plugins)).own =
          (Owner.abstractPage q).handlers ⟨p, .standard⟩ plugins := own_attached
    rw [Check.ofAbstractPage, List.flatMap_map]
    exact congrArg (fun hs : OwnHandlers => (hs.get.toList ++ hs.actions).flatMap fun h =>
      h.dispatchFindings ⟨p, .standard⟩ q.typeName) hown.symm
  have hchecks : (((⟨p, .standard⟩ : Setting).findings plugins).filter fun f =>
      f.2.code = "PA-E403") = app.owners.flatMap fun o =>
        (o.own.get.toList ++ o.own.actions).flatMap fun h =>
          h.dispatchFindings ⟨p, .standard⟩ o.typeName := by
    rw [List.filter_congr fun f _ => hpass f, ← List.filter_filter, filter_findings, findingsOf,
      crossFindings, Check.filter_findings, List.flatMap_append, List.flatMap_assoc,
      List.flatMap_assoc, ← pages_of_app? happ, ← abstractPages_of_app? happ, App.owners,
      List.flatMap_append, List.flatMap_map, List.flatMap_map]
    congr 1
    · exact List.flatMap_congr fun page _ => Check.flatMap_ofPage _ page
    · exact List.flatMap_congr habstract
  rw [hchecks, App.notEvents]
  refine List.flatMap_congr fun o ho => List.flatMap_congr fun h hh => ?_
  rw [(own_of_mem_owners happ ho).2] at hh
  obtain ⟨m, -, hread⟩ := (o.areReadFrom_handlers ⟨p, .standard⟩ plugins).exists_isReadFrom hh
  exact hread.dispatchFindings_eq o.typeName

end Setting

/-- The dispatched types of an application that are not accepted are reported once each, and nothing
else is reported with their code. -/
def App.ReportsNotEvents (p : Package) (accepted : HostType → Bool) (app : App) (ds : Diagnostics) :
    Prop :=
  ((ds.withCode "PA-E403").map fun d => (d.location, d.error)).Perm
    ((app.notEvents p accepted).map fun f => (f.1.normalized, f.2))

private theorem App.reportsNotEvents_ofPackage {p : Package} {plugins : List Plugin} {app : App}
    (happ : (⟨p, .standard⟩ : Setting).app? plugins = some app) :
    app.ReportsNotEvents p (Setting.passesAsEvent ⟨p, .standard⟩)
      (Analysis.ofPackage .standard plugins p).diagnostics := by
  have hperm := (Analysis.perm_map_entries .standard plugins p).filter fun f =>
    f.2.code = "PA-E403"
  rw [List.filter_map, List.filter_map] at hperm
  rw [ReportsNotEvents, Diagnostics.withCode, ← Setting.filter_findings_notEvent happ]
  exact hperm

/-- **The dispatched types that are reported** are those that neither stand for an event type nor
are type parameters with the name of one. -/
theorem Analysis.reportsNotEvents {plugins : List Plugin} {sources : List Source} {app : App}
    (happ : (ofSources .standard plugins sources).app = some app) :
    ∃ p, Package.load sources = .ok p ∧
      app.ReportsNotEvents p (Setting.passesAsEvent ⟨p, .standard⟩)
        (ofSources .standard plugins sources).diagnostics := by
  obtain ⟨p, hload, heq, happ⟩ := exists_package happ
  exact ⟨p, hload, heq ▸ App.reportsNotEvents_ofPackage happ⟩

/-! ### A type parameter with the name of an event -/

/-- An application in which a type parameter has the name of the event type, so that what the action
dispatches is no event. -/
def shadowedEvent : List (String × List String) :=
  [("app.go",
    ["package app",
     "import \"net/http\"",
     "import \"github.com/a-h/templ\"",
     "type App struct\x7b\x7d",
     "// EventSaved is \"saved\"",
     "type EventSaved struct\x7b ID string `json:\"id\"` \x7d",
     "// PageIndex is /",
     "type PageIndex[EventSaved any] struct\x7b App *App \x7d",
     "func (PageIndex[EventSaved]) GET(r *http.Request) (body templ.Component) \x7b\x7d",
     "// POSTSave is /save",
     "func (PageIndex[EventSaved]) POSTSave(r *http.Request, dispatch func(EventSaved) error) " ++
       "error \x7b\x7d"])]

set_option maxRecDepth 100000 in
/-- The application dispatches a type that is no event and passes for one. -/
private theorem exists_app_shadowedEvent :
    ∃ p app, Package.load (sourcesOf shadowedEvent) = .ok p ∧
      (⟨p, .standard⟩ : Setting).app? [] = some app ∧
      app.notEvents p (Setting.passesAsEvent ⟨p, .standard⟩) = [] ∧
      app.notEvents p (Setting.isEvent ⟨p, .standard⟩) ≠ [] := by
  have hall : ((Package.load (sourcesOf shadowedEvent)).toOption.any fun p =>
      ((⟨p, .standard⟩ : Setting).app? []).any fun app =>
        (app.notEvents p (Setting.passesAsEvent ⟨p, .standard⟩)).isEmpty &&
          !(app.notEvents p (Setting.isEvent ⟨p, .standard⟩)).isEmpty) = true := by
    rw [Package.load_sourcesOf]
    decide +kernel
  obtain ⟨p, hload, hp⟩ := Package.exists_load_of_any hall
  simp only [Option.any_eq_true, Bool.and_eq_true, Bool.not_eq_true', List.isEmpty_iff,
    List.isEmpty_eq_false_iff] at hp
  obtain ⟨app, happ, hreported, hfound⟩ := hp
  exact ⟨p, app, hload, happ, hreported, hfound⟩

/-- What is reported about this application goes by what passes for an event. -/
theorem Analysis.reportsNotEvents_shadowedEvent :
    ∃ app, (ofSources .standard [] (sourcesOf shadowedEvent)).app = some app ∧
      ∃ p, Package.load (sourcesOf shadowedEvent) = .ok p ∧
        app.ReportsNotEvents p (Setting.passesAsEvent ⟨p, .standard⟩)
          (ofSources .standard [] (sourcesOf shadowedEvent)).diagnostics := by
  obtain ⟨p, app, hload, happ, -, -⟩ := exists_app_shadowedEvent
  have hsome : (ofSources .standard [] (sourcesOf shadowedEvent)).app = some app := by
    rw [ofSources, hload]
    exact happ
  exact ⟨app, hsome, reportsNotEvents hsome⟩

/-- A dispatched type that is no event need not be reported. -/
theorem Analysis.not_forall_reportsNotEvents :
    ¬ ∀ (plugins : List Plugin) (sources : List Source) (app : App),
      (ofSources .standard plugins sources).app = some app →
        ∃ p, Package.load sources = .ok p ∧
          app.ReportsNotEvents p (Setting.isEvent ⟨p, .standard⟩)
            (ofSources .standard plugins sources).diagnostics := by
  intro hall
  obtain ⟨p, app, hload, happ, hreported, hfound⟩ := exists_app_shadowedEvent
  have hof : ofSources .standard [] (sourcesOf shadowedEvent) = ofPackage .standard [] p := by
    rw [ofSources, hload]
    rfl
  obtain ⟨q, hq, hperm⟩ := hall [] _ app (by rw [hof]; exact happ)
  obtain rfl := Except.ok.inj (hload.symm.trans hq)
  -- nothing is reported, since the type parameter has the name of the event type
  have hnone := App.reportsNotEvents_ofPackage happ
  rw [App.ReportsNotEvents, hreported, List.map_nil, List.perm_nil] at hnone
  rw [App.ReportsNotEvents, hof, hnone, List.nil_perm, List.map_eq_nil_iff] at hperm
  exact hfound hperm

end GoPages
