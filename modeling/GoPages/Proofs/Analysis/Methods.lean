import GoPages.Proofs.Analysis.Owners
import GoPages.Proofs.Conventions.Standard
import GoPages.Proofs.Signature.Slots

/-!
# The methods of an owner

Under the default conventions the own handlers of a page or an abstract page are exactly its methods
with certain names, in their order.

* `Method.event?` is the event type that a method handles, and `Method.isFirst` says that none of
  the methods before it handles the same one.
* `Owner.Attends` is what becomes of all methods of an owner: each is the GET, an action, an event
  handler, or is rejected by a diagnostic, unless its name says nothing.
* `Analysis.attends_of_app`: every page and abstract page of an application attends to its methods.

An owner takes its methods in turn (`Owner.attached_eq`), so the handlers are compared with the
methods turn by turn (`Owner.rel_handlerInTurn_get` and its kin).
-/

namespace GoPages

/-! ### Findings of methods -/

/-- The findings about a method follow the handlers of the methods before it. -/
theorem Owner.mem_findings {s : Setting} {plugins : List Plugin} {o : Owner}
    {before after : List Method} {m : Method}
    (hsplit : s.methodsOf o.typeName = before ++ m :: after) {f : Finding}
    (hf : f ∈ o.methodFindings s (o.attached s plugins before) m) : f ∈ o.findings s plugins :=
  mem_findingsAfter_iff.mpr ⟨before, m, after, hsplit, hf⟩

/-- What is found about a method of a page or an abstract page is a finding of the analysis. -/
theorem Setting.mem_findings_of_owner {s : Setting} {plugins : List Plugin} {o : Owner} {m : Method}
    (ho : s.declares o) (hm : m ∈ s.methodsOf o.typeName) {f : Finding}
    (hf : f ∈ o.findings s plugins) : f ∈ s.findings plugins := by
  have hmem : f ∈ s.methodFindings plugins := List.mem_flatMap.mpr ⟨o, mem_owners ho hm, hf⟩
  simp only [findings, List.mem_append]
  exact .inl (.inl (.inl (.inr hmem)))

/-! ### Event types -/

namespace Method

/-- The event type that a method handles: its name starts with `On`, and its first parameter is
called `event` and is of this type. Aliases and one pointer do not matter. -/
def event? (s : Setting) (m : Method) : Option String :=
  if m.isEventHandler then
    match m.params s.package with
    | p :: _ => if p.name = "event" then s.eventOf? p.type else none
    | [] => none
  else none

/-- Does the method handle an event type that none of the methods before it handles? -/
def isFirst (s : Setting) (before : List Method) (m : Method) : Bool :=
  (m.event? s).any fun e => before.all fun a => a.event? s != some e

/-- The finding says, at the name of the method or at its first parameter, that the method does not
handle an event type, or not as the first one. -/
def IsRejectedBy (s : Setting) (m : Method) (f : Finding) : Prop :=
  (f.1 = m.location ∧ f.2.code ∈ ["PA-E313", "PA-E503"]) ∨
    ∃ p ∈ (m.params s.package).head?, f.1 = p.location ∧ f.2.code = "PA-E314"

end Method

/-! ### Findings about event handlers -/

namespace AnalysisError

variable (receiver method : String)

private theorem code_eventHandlerFirstArgNotEvent :
    (eventHandlerFirstArgNotEvent receiver method).code = "PA-E313" := by
  rw [code, number]
  decide

/-- The code says nothing of the type that was found. -/
theorem code_eventHandlerFirstArgTypeNotEvent (found : String) :
    (eventHandlerFirstArgTypeNotEvent receiver method found).code = "PA-E314" := by
  rw [code, number]
  decide

private theorem code_duplicateEventHandler (event : String) (previous : Location) :
    (duplicateEventHandler receiver method event previous).code = "PA-E503" := by
  rw [code, number]
  decide

end AnalysisError

namespace EventHandler

/-- Something is wrong with the first parameter of an event handler without an event type. -/
theorem exists_error_of_event? {s : Setting} {m : Method} (hevent : m.isEventHandler)
    (hnone : m.event? s = none) : ∃ f, event? s m = .error f ∧ m.IsRejectedBy s f := by
  rw [event?]
  cases hparam : eventParam? (m.params s.package) with
  | none =>
    refine ⟨_, rfl, .inl ⟨rfl, ?_⟩⟩
    simp [Method.finding, AnalysisError.code_eventHandlerFirstArgNotEvent]
  | some found =>
    obtain ⟨p, params⟩ := found
    obtain ⟨hparams, hname⟩ := eventParam?_eq_some_iff.mp hparam
    have htype : s.eventOf? p.type = none := by
      simpa [Method.event?, hevent, hparams, hname] using hnone
    simp only [htype]
    refine ⟨_, rfl, .inr ⟨p, by rw [hparams, List.head?_cons, Option.mem_def], rfl, ?_⟩⟩
    exact AnalysisError.code_eventHandlerFirstArgTypeNotEvent _ _ _

end EventHandler

section Standard

variable {s : Setting} (hstd : s.conventions = .standard)
include hstd

private theorem Owner.handledEvent?_eq (m : Method) : handledEvent? s m = m.event? s := by
  have hevent := Setting.isSome_eventSuffix? hstd m
  rw [handledEvent?, eventHandler?, Method.event?, ← hevent]
  cases s.eventSuffix? m.name with
  | none => rfl
  | some suffix =>
    simp only [Option.bind_some, Option.isSome_some, if_true]
    rw [EventHandler.read?, EventHandler.event?]
    cases m.params s.package with
    | nil => rfl
    | cons p params =>
      by_cases hname : p.name = "event"
      · cases htype : s.eventOf? p.type <;> simp [EventHandler.eventParam?, hname, htype]
      · simp [EventHandler.eventParam?, hname]

/-! ### Turn by turn -/

namespace Owner

variable (plugins : List Plugin) (o : Owner) (before : List Method) (m : Method)

/-- In its turn a method gives a GET exactly if it is called so. -/
theorem rel_handlerInTurn_get :
    Option.Rel (fun m h => h.IsReadFrom s o m) (if m.isGet then some m else none)
      ((o.handlerInTurn s plugins before m).filter fun h => h.method = .get) := by
  refine rel_guard ?_ fun h hh => isReadFrom_of_handlerInTurn (Option.filter_eq_some_iff.mp hh).1
  rw [o.isSome_filter_handlerInTurn s plugins before m fun method => method = .get,
    Setting.any_request?_get hstd]

/-- In its turn a method gives an action exactly if its name starts with a verb. -/
theorem rel_handlerInTurn_action :
    Option.Rel (fun m h => h.IsReadFrom s o m) (if m.isAction then some m else none)
      ((o.handlerInTurn s plugins before m).filter fun h => h.method ≠ .get) := by
  refine rel_guard ?_ fun h hh => isReadFrom_of_handlerInTurn (Option.filter_eq_some_iff.mp hh).1
  rw [o.isSome_filter_handlerInTurn s plugins before m fun method => method ≠ .get,
    Setting.any_request?_action hstd]

/-- The event type that a method handles has no handler yet if no earlier method handles it. -/
theorem eventType_notMem_attached_iff {e : String} :
    e ∉ (o.attached s plugins before).eventTypes ↔ ∀ a ∈ before, a.event? s ≠ some e := by
  simp [mem_eventTypes_attached_iff, handledEvent?_eq hstd]

/-- In its turn a method gives an event handler exactly if it is the first one for its event
type. -/
theorem rel_eventHandlerInTurn :
    Option.Rel (fun m h => h.IsReadFrom s m ∧ m.event? s = some h.eventType)
      (if m.isFirst s before then some m else none) (o.eventHandlerInTurn s plugins before m) := by
  have htype := o.map_eventType_eventHandlerInTurn s plugins before m
  rw [handledEvent?_eq hstd] at htype
  refine rel_guard ?_ fun h hh => ⟨isReadFrom_of_eventHandlerInTurn hh, ?_⟩
  · -- an event type without a handler is one that no method before handles
    rw [← Option.isSome_map, htype, Option.isSome_filter, Method.isFirst]
    congr 1
    funext e
    rw [Bool.eq_iff_iff, List.all_eq_true, decide_eq_true_eq, eventType_notMem_attached_iff hstd]
    simp only [bne_iff_ne]
  · rw [hh, Option.map_some] at htype
    exact (Option.filter_eq_some_iff.mp htype.symm).1

end Owner

/-! ### Methods that are rejected -/

/-- What is found about an event handler that is not the first one for its event type. -/
theorem Owner.exists_isRejectedBy (plugins : List Plugin) (o : Owner)
    {before : List Method} {m : Method} (hevent : m.isEventHandler)
    (hnot : m.isFirst s before = false) :
    ∃ f ∈ o.methodFindings s (o.attached s plugins before) m, m.IsRejectedBy s f := by
  have hsuffix := (Setting.isSome_eventSuffix? hstd m).trans hevent
  obtain ⟨suffix, hsome⟩ := Option.isSome_iff_exists.mp hsuffix
  -- the findings are those about the signature, and those about handlers before it
  have hfindings : ∀ f, f ∈ EventHandler.findings s m ∨
      f ∈ duplicateFindings s (o.attached s plugins before) m →
      f ∈ o.methodFindings s (o.attached s plugins before) m := by
    intro f hf
    rw [methodFindings, Setting.request?_of_eventSuffix? hsome, if_pos hsuffix]
    exact List.mem_append_right _ (List.mem_append.mpr hf)
  cases htype : m.event? s with
  | none =>
    obtain ⟨f, hf, hrejected⟩ := EventHandler.exists_error_of_event? hevent htype
    refine ⟨f, hfindings f (.inl (List.mem_append_left _ ?_)), hrejected⟩
    rw [EventHandler.inputFindings, hf]
    exact List.mem_singleton_self f
  | some e =>
    obtain ⟨h, hread, rfl⟩ := Option.map_eq_some_iff.mp ((handledEvent?_eq hstd m).trans htype)
    have hearlier : h.eventType ∈ (o.attached s plugins before).eventTypes := by
      refine mem_eventTypes_attached_iff.mpr ?_
      simpa [Method.isFirst, htype, handledEvent?_eq hstd] using hnot
    have hne : (o.attached s plugins before).eventHandler? h.eventType ≠ none :=
      fun hnone => OwnHandlers.eventHandler?_eq_none_iff.mp hnone hearlier
    obtain ⟨previous, hprevious⟩ := Option.ne_none_iff_exists'.mp hne
    refine ⟨m.finding (.duplicateEventHandler m.receiver m.name h.eventType
      previous.location.normalized), hfindings _ (.inr ?_), .inl ⟨rfl, ?_⟩⟩
    · simp [duplicateFindings, hread, hprevious]
    · simp [Method.finding, AnalysisError.code_duplicateEventHandler]

/-! ### All methods -/

namespace Owner

variable (plugins : List Plugin) (o : Owner) (ms : List Method)

/-- The GET after some methods is that of the first one called so. -/
theorem rel_get_attached :
    Option.Rel (fun m h => h.IsReadFrom s o m) (ms.find? Method.isGet)
      (o.attached s plugins ms).get := by
  rw [attached_eq, ← List.head?_filter, ← List.head?_filter, filter_inTurn, ← inTurn_guard]
  exact rel_head? (forall₂_inTurn (o.rel_handlerInTurn_get hstd plugins) ms)

/-- The actions after some methods are those whose names start with a verb. -/
theorem forall₂_actions_attached :
    List.Forall₂ (fun m h => h.IsReadFrom s o m) (ms.filter Method.isAction)
      (o.attached s plugins ms).actions := by
  rw [attached_eq, filter_inTurn, ← inTurn_guard]
  exact forall₂_inTurn (o.rel_handlerInTurn_action hstd plugins) ms

/-- The event handlers after some methods are the first ones for their event types. -/
theorem forall₂_eventHandlers_attached :
    List.Forall₂ (fun m h => h.IsReadFrom s m ∧ m.event? s = some h.eventType)
      (inTurn (fun before m => if m.isFirst s before then some m else none) ms)
      (o.attached s plugins ms).eventHandlers := by
  rw [attached_eq]
  exact forall₂_inTurn (o.rel_eventHandlerInTurn hstd plugins) ms

end Owner

end Standard

/-! ### Applications -/

/-- What becomes of the methods of an owner: its own GET is the first method called so, its own
actions are the methods whose names start with a verb, its own event handlers are the first ones for
their event types, and every other method whose name starts with `On` is rejected by a
diagnostic. -/
structure Owner.Attends (s : Setting) (ds : Diagnostics) (o : Owner) : Prop where
  get : Option.Rel (fun m h => h.IsReadFrom s o m)
    ((s.methodsOf o.typeName).find? Method.isGet) o.own.get
  actions : List.Forall₂ (fun m h => h.IsReadFrom s o m)
    ((s.methodsOf o.typeName).filter Method.isAction) o.own.actions
  eventHandlers : List.Forall₂ (fun m h => h.IsReadFrom s m ∧ m.event? s = some h.eventType)
    (inTurn (fun before m => if m.isFirst s before then some m else none) (s.methodsOf o.typeName))
    o.own.eventHandlers
  rejected : ∀ before m after, s.methodsOf o.typeName = before ++ m :: after → m.isEventHandler →
    m.isFirst s before = false → ∃ f, m.IsRejectedBy s f ∧
      ∃ d ∈ ds.entries, d.location = f.1.normalized ∧ d.error = f.2

/-- How a handler is read does not depend on the handlers that its owner has by then. -/
private theorem Handler.isReadFrom_withHandlers {s : Setting} {o : Owner} {hs : OwnHandlers}
    {m : Method} {h : Handler} : h.IsReadFrom s (o.withHandlers hs) m ↔ h.IsReadFrom s o m := by
  cases o <;> exact .rfl

/-- An owner in an application attends to its methods, whatever it has inherited. -/
private theorem Setting.attends_of_mem_owners {s : Setting} (hstd : s.conventions = .standard)
    {plugins : List Plugin} {app : App} (happ : s.app? plugins = some app) {o : Owner}
    (ho : o ∈ app.owners) :
    o.Attends s (Analysis.ofPackage s.conventions plugins s.package).diagnostics := by
  obtain ⟨⟨q, hs, hq, rfl⟩, hown⟩ := own_of_mem_owners happ ho
  rw [Owner.handlers_withHandlers, Owner.handlers_eq_attached] at hown
  refine ⟨?_, ?_, ?_, fun before m after hsplit hevent hnot => ?_⟩
  · simp only [hown, Owner.typeName_withHandlers, Handler.isReadFrom_withHandlers]
    exact q.rel_get_attached hstd plugins _
  · simp only [hown, Owner.typeName_withHandlers, Handler.isReadFrom_withHandlers]
    exact q.forall₂_actions_attached hstd plugins _
  · simp only [hown, Owner.typeName_withHandlers]
    exact q.forall₂_eventHandlers_attached hstd plugins _
  · rw [Owner.typeName_withHandlers] at hsplit
    obtain ⟨f, hf, hrejected⟩ := q.exists_isRejectedBy hstd plugins hevent hnot
    have hm : m ∈ s.methodsOf q.typeName := by simp [hsplit]
    exact ⟨f, hrejected,
      Analysis.exists_mem_entries (mem_findings_of_owner hq hm (Owner.mem_findings hsplit hf))⟩

/-- **No method is lost, and no handler is invented.** Under the default conventions every page and
abstract page of an application attends to its methods, in the order of the files and then of the
text. -/
theorem Analysis.attends_of_app {plugins : List Plugin} {sources : List Source} {app : App}
    (happ : (ofSources .standard plugins sources).app = some app) :
    ∃ p, Package.load sources = .ok p ∧ ∀ o ∈ app.owners,
      o.Attends ⟨p, .standard⟩ (ofSources .standard plugins sources).diagnostics := by
  obtain ⟨p, hload, heq, happ⟩ := exists_package happ
  refine ⟨p, hload, fun o ho => ?_⟩
  rw [heq]
  exact Setting.attends_of_mem_owners rfl happ ho

/-- An application whose page has methods of all kinds: two for one event type, and one without an
event. -/
def eventfulPage : List (String × List String) :=
  [("app.go",
    ["package app",
     "import \"net/http\"",
     "import \"github.com/a-h/templ\"",
     "type App struct\x7b\x7d",
     "// EventSaved is \"saved\"",
     "type EventSaved struct\x7b ID string `json:\"id\"` \x7d",
     "// PageIndex is /",
     "type PageIndex struct\x7b App *App \x7d",
     "func (PageIndex) GET(*http.Request) (body templ.Component) \x7b\x7d",
     "// POSTSave is /save",
     "func (PageIndex) POSTSave(*http.Request) error \x7b\x7d",
     "func (PageIndex) OnSaved(event EventSaved) error \x7b\x7d",
     "func (PageIndex) OnSavedAgain(event *EventSaved) error \x7b\x7d",
     "func (PageIndex) OnRequest(*http.Request) error \x7b\x7d"])]

set_option maxRecDepth 100000 in
/-- The page has a GET, an action and an event handler of its own. -/
theorem exists_app_eventfulPage :
    ∃ app, (Analysis.ofSources .standard [] (sourcesOf eventfulPage)).app = some app ∧
      ∃ o ∈ app.owners, o.own.get.isSome ∧ o.own.actions.map Handler.methodName = ["POSTSave"] ∧
        o.own.eventHandlers.map EventHandler.methodName = ["OnSaved"] := by
  have hall : ((Analysis.ofSources .standard [] (sourcesOf eventfulPage)).app.any fun app =>
      app.owners.any fun o => o.own.get.isSome &&
        (o.own.actions.map Handler.methodName == ["POSTSave"] &&
          o.own.eventHandlers.map EventHandler.methodName == ["OnSaved"])) = true := by
    rw [Analysis.ofSources, Package.load_sourcesOf]
    decide +kernel
  simpa only [Option.any_eq_true, List.any_eq_true, Bool.and_eq_true, beq_iff_eq] using hall

/-- All methods of the page are attended to, each kind of handler among them. -/
theorem Analysis.attends_eventfulPage :
    ∃ app, (ofSources .standard [] (sourcesOf eventfulPage)).app = some app ∧
      (∃ o ∈ app.owners, o.own.get.isSome ∧ o.own.actions.map Handler.methodName = ["POSTSave"] ∧
        o.own.eventHandlers.map EventHandler.methodName = ["OnSaved"]) ∧
      ∃ p, Package.load (sourcesOf eventfulPage) = .ok p ∧ ∀ o ∈ app.owners,
        o.Attends ⟨p, .standard⟩
          (ofSources .standard [] (sourcesOf eventfulPage)).diagnostics := by
  obtain ⟨app, happ, howner⟩ := exists_app_eventfulPage
  exact ⟨app, happ, howner, attends_of_app happ⟩

end GoPages
