import GoPages.Proofs.Analysis.Methods
import GoPages.Proofs.Analysis.Passes
import GoPages.Proofs.Analysis.Roles
import GoPages.Proofs.Files.Package

/-!
# Events in signatures

The events of an application are known by the names under which they are declared. In a signature a
type is an event if the chain of aliases from it ends in an event type, so that the two disagree
about an event that is declared as an alias of another type.

* `Package.leadsToEvent` says of a name where the chain of aliases from it ends.
* `Owner.exists_finding_iff`: the first parameter of an event handler is a finding exactly if its
  type is no event.
* `Handler.exists_finding_iff`: a type that a handler dispatches is a finding exactly if it is none.
* `Analysis.judges_events`: so the events of an application are accepted in signatures exactly if
  their names lead to events, as they do if they are declared as types of their own.
-/

namespace GoPages

/-! ### Texts of types -/

private theorem isAlphanum_of_isEventName {name : String} (h : isEventName name) :
    ∀ c ∈ name.toList, c.isAlphanum := by
  obtain ⟨c, cs, hname, hc, hcs⟩ := isEventName_iff.mp h
  have hevent : "Event".toList.all Char.isAlphanum := by decide
  intro d hd
  rw [hname, List.mem_append, List.mem_cons] at hd
  rcases hd with hd | rfl | hd
  · exact List.all_eq_true.mp hevent d hd
  · exact Bool.or_eq_true_iff.mpr (.inl (Bool.or_eq_true_iff.mpr (.inl hc)))
  · exact hcs d hd

/-- A text with another character than letters and digits is no event name. -/
theorem isEventName_eq_false {text : String} {c : Char} (hc : c ∈ text.toList)
    (hnot : c.isAlphanum = false) : isEventName text = false := by
  rw [Bool.eq_false_iff]
  intro h
  simp [isAlphanum_of_isEventName h c hc] at hnot

/-- A type that is not declared in the package is not written as an event name, unless it is a type
parameter or a predeclared type of such a name. -/
theorem HostType.isEventName_render {t : HostType} (hlocal : t.localName = none)
    (hparam : ∀ name, t ≠ .typeParam name)
    (hbasic : ∀ name, t = .basic name → isEventName name = false) :
    isEventName t.render = false := by
  -- each text has a character that no event name has
  cases t with
  | basic name => exact hbasic name rfl
  | error => decide
  | named package name args =>
    have hpackage : package ≠ "" := by
      rintro rfl
      cases hlocal
    exact isEventName_eq_false (c := '.') (by simp [render, renderNamed, hpackage]) (by decide)
  | typeParam name => exact absurd rfl (hparam name)
  | pointer elem => exact isEventName_eq_false (c := '*') (by simp [render]) (by decide)
  | slice elem => exact isEventName_eq_false (c := '[') (by simp [render]) (by decide)
  | array len elem => exact isEventName_eq_false (c := '[') (by simp [render]) (by decide)
  | map key value => exact isEventName_eq_false (c := '[') (by simp [render]) (by decide)
  | chan elem => exact isEventName_eq_false (c := ' ') (by simp [render]) (by decide)
  | func params results variadic =>
    exact isEventName_eq_false (c := '(') (by simp [render]) (by decide)
  | struct fields => exact isEventName_eq_false (c := '\x7b') (by simp [render]) (by decide)
  | interface empty =>
    exact isEventName_eq_false (c := '\x7b') (by cases empty <;> simp [render]) (by decide)
  | invalid => exact isEventName_eq_false (c := ' ') (by simp [render]) (by decide)

namespace Scope

variable {s : Scope}

/-- No predeclared type has the name of an event. -/
private theorem isEventName_of_predeclared? {name n : String}
    (h : predeclared? name = some (.basic n)) : isEventName n = false := by
  have hbasic : basicTypes.all fun n => !isEventName n := by decide
  unfold predeclared? at h
  split at h
  case h_6 =>
    obtain ⟨hn, heq⟩ := Option.ite_none_right_eq_some.mp h
    cases heq
    simpa using List.all_eq_true.mp hbasic name (List.contains_iff_mem.mp hn)
  all_goals
    cases h
    try decide

/-- A basic type or a type parameter is denoted by nothing but a name, with type arguments or
without. -/
theorem exists_typeOfName?_of_resolve {type : HostType}
    (hplain : (∃ n, type = .basic n) ∨ ∃ n, type = .typeParam n) :
    ∀ {expr : TypeExpr}, s.resolve expr = type → ∃ name, s.typeOfName? name = some type
  | .ident id, h => by
    rw [resolve] at h
    cases htype : s.typeOfName? id.name with
    | none =>
      rw [htype, Option.getD_none] at h
      rcases hplain with ⟨n, rfl⟩ | ⟨n, rfl⟩ <;> cases h
    | some t =>
      rw [htype, Option.getD_some] at h
      exact ⟨id.name, h ▸ htype⟩
  | .generic base args, h => by
    -- type arguments change a declared type only
    have hbase : s.resolve base = type := by
      rw [resolve] at h
      rcases hplain with ⟨n, rfl⟩ | ⟨n, rfl⟩ <;>
        cases hbase : s.resolve base <;> simp_all [instantiate]
    exact exists_typeOfName?_of_resolve hplain hbase
  | .qualified package id, h => by
    rw [resolve] at h
    split at h <;> rcases hplain with ⟨n, rfl⟩ | ⟨n, rfl⟩ <;> cases h
  | .pointer _ _, h | .slice _ _, h | .ellipsis _ _, h | .array _ _ _, h | .map _ _ _, h
  | .chan _ _ _, h | .func _, h | .struct _ _, h | .interface _ _, h => by
    rcases hplain with ⟨n, rfl⟩ | ⟨n, rfl⟩ <;> simp [resolve] at h

/-- Outside of generic declarations no type expression denotes a type parameter. -/
theorem resolve_ne_typeParam (hparams : s.typeParams = []) (name : String) (expr : TypeExpr) :
    s.resolve expr ≠ .typeParam name := by
  intro h
  obtain ⟨id, hid⟩ := exists_typeOfName?_of_resolve (.inr ⟨name, rfl⟩) h
  rcases typeOfName?_eq hid with ⟨hcontains, -⟩ | ⟨package, hnamed⟩ | hpredeclared
  · simp [hparams] at hcontains
  · cases hnamed
  · simpa using predeclared?_cases hpredeclared

/-- No predeclared type has the name of an event. -/
theorem isEventName_of_resolve (name : String) (expr : TypeExpr)
    (h : s.resolve expr = .basic name) : isEventName name = false := by
  obtain ⟨id, hid⟩ := exists_typeOfName?_of_resolve (.inl ⟨name, rfl⟩) h
  rcases typeOfName?_eq hid with ⟨-, hbasic⟩ | ⟨package, hnamed⟩ | hpredeclared
  · cases hbasic
  · cases hnamed
  · exact isEventName_of_predeclared? hpredeclared

end Scope

/-! ### Chains of aliases -/

namespace Package

variable {p : Package} {name : String}

/-- Does the chain of aliases from a declared name end in an event type? -/
def leadsToEvent (p : Package) (name : String) : Bool :=
  (p.unalias (.named "" name [])).localName.any fun last =>
    isEventName last && (p.typeDecl? last).isSome

/-- The type that aliases end in is the type itself, or written in one of the declarations. -/
theorem unaliasFrom_cases (p : Package) (decls : List TypeDecl) (type : HostType) :
    p.unaliasFrom decls type = type ∨
      ∃ file expr, p.unaliasFrom decls type = (p.scope file).resolve expr := by
  fun_induction unaliasFrom p decls type with
  | case1 => exact .inl rfl
  | case2 => exact .inl rfl
  | case3 decls type name hname d hd _ halias ih =>
    exact .inr (ih.elim (fun h => ⟨d.file, d.spec.type, h⟩) id)
  | case4 => exact .inl rfl

/-- Type arguments do not matter for the name that aliases end in. -/
theorem localName_unaliasFrom (decls : List TypeDecl) {type : HostType}
    (h : type.localName = some name) :
    (p.unaliasFrom decls type).localName = (p.unaliasFrom decls (.named "" name [])).localName := by
  have hplain : (HostType.named "" name []).localName = some name := rfl
  rw [unaliasFrom_eq, unaliasFrom_eq, h, hplain]
  dsimp only
  split
  · exact h
  · split
    · rfl
    · exact h

/-- An event that is declared as a type of its own leads to itself. -/
private theorem leadsToEvent_of_not_isAlias {d : TypeDecl} (hd : p.typeDecl? name = some d)
    (halias : d.spec.isAlias = false) (hname : isEventName name) : p.leadsToEvent name := by
  have hplain : (HostType.named "" name []).localName = some name := rfl
  have hfind : findDecl? name p.typeDecls = some d := hd
  have hself : p.unalias (.named "" name []) = .named "" name [] := by
    rw [unalias, unaliasFrom_eq, hplain]
    simp [hfind, halias]
  simp [leadsToEvent, hself, hplain, hname, hd]

end Package

namespace Setting

variable {p : Package} {name : String} {type : HostType}
  (h : type.stripPointer.localName = some name)

/-- Under the default conventions an event type is a declared type with the name of an event. -/
theorem isEventType_standard (p : Package) (name : String) :
    (⟨p, .standard⟩ : Setting).isEventType name =
      (isEventName name && (p.typeDecl? name).isSome) := by
  rw [isEventType, isValidEventName_standard]

include h

/-- A parameter is an event if its name leads to one. -/
theorem isSome_eventOf? :
    ((⟨p, .standard⟩ : Setting).eventOf? type).isSome = p.leadsToEvent name := by
  rw [eventOf?, Option.isSome_filter, Package.unalias, p.localName_unaliasFrom _ h,
    ← Package.unalias, Package.leadsToEvent]
  congr 1
  exact funext (isEventType_standard p)

/-- A dispatched type has the name of an event if its name leads to one. -/
theorem isEventType_eventName :
    (⟨p, .standard⟩ : Setting).isEventType (Dispatch.eventName p type) = p.leadsToEvent name := by
  have hlast := p.localName_unaliasFrom p.typeDecls h
  rw [← Package.unalias, ← Package.unalias] at hlast
  rw [isEventType_standard, Dispatch.eventName, Package.leadsToEvent, ← hlast]
  cases hlocal : (p.unalias type.stripPointer).localName with
  | some last => rfl
  | none =>
    -- the chain has left the declared types, so it ends in a type that is written in a declaration
    have hname : isEventName (p.unalias type.stripPointer).render = false := by
      rcases p.unaliasFrom_cases p.typeDecls type.stripPointer with heq | ⟨file, expr, heq⟩
      · rw [Package.unalias, heq, h] at hlocal
        cases hlocal
      · rw [Package.unalias, heq] at hlocal ⊢
        exact HostType.isEventName_render hlocal
          (fun name => Scope.resolve_ne_typeParam rfl name expr)
          fun name => Scope.isEventName_of_resolve name expr
    rw [Option.getD_none, hname]
    rfl

end Setting

/-! ### Event handlers -/

/-- The code belongs to diagnostics with this number alone. -/
private theorem AnalysisError.code_eq_firstArgTypeNotEvent_iff {e : AnalysisError} :
    e.code = "PA-E314" ↔ e.number = 314 := by
  rw [← code_eventHandlerFirstArgTypeNotEvent "" "" "", code_eq_code_iff]
  rfl

namespace Owner

variable {s : Setting} {m : Method} {f : Finding}

/-- The name of a method is never the reason for this diagnostic. -/
private theorem number_of_mem_nameFindings (hf : f ∈ s.nameFindings m) : f.2.number ≠ 314 := by
  rw [Setting.nameFindings] at hf
  split at hf
  · obtain ⟨-, hf⟩ := List.mem_ite_nil_left.mp hf
    simp [List.mem_singleton.mp hf, Method.finding, AnalysisError.number]
  · obtain ⟨-, hf⟩ := List.mem_ite_nil_left.mp hf
    simp [List.mem_singleton.mp hf, Method.finding, AnalysisError.number]
  · cases hf

/-- A method that comes twice is never the reason for this diagnostic. -/
private theorem number_of_mem_duplicateFindings {hs : OwnHandlers}
    (hf : f ∈ duplicateFindings s hs m) : f.2.number ≠ 314 := by
  rw [duplicateFindings] at hf
  split at hf
  · cases hf
  · split at hf
    · cases hf
    · simp [List.mem_singleton.mp hf, Method.finding, AnalysisError.number]

/-- What is found about the parameters after the event is not about the event. -/
theorem number_of_mem_findings_assign {params : List Parameter}
    (hf : f ∈ (EventHandler.assign s params).findings s m) : f.2.number ≠ 314 := by
  rw [Assignment.findings, List.mem_append] at hf
  rcases hf with hf | hf
  · obtain ⟨⟨role, p⟩, hp, hf⟩ := List.mem_flatMap.mp hf
    have hrole : role = .sse ∨ role = .sessionToken ∨ role = .session := by
      simpa using (s.roles_assign_sublist _ params).subset (List.mem_map_of_mem hp)
    rcases hrole with rfl | rfl | rfl
    · cases hf
    · obtain ⟨-, hf⟩ := List.mem_ite_nil_left.mp hf
      simp [List.mem_singleton.mp hf, Setting.wrongInput, Parameter.finding, AnalysisError.number]
    · obtain ⟨-, hf⟩ := List.mem_ite_nil_left.mp hf
      simp [List.mem_singleton.mp hf, Setting.wrongInput, Parameter.finding, AnalysisError.number]
  · obtain ⟨p, -, rfl⟩ := List.mem_map.mp hf
    simp [Assignment.unknown, Parameter.finding, AnalysisError.number]

/-- If the first parameter is an event, then nothing is found with its number. -/
theorem number_of_mem_methodFindings {o : Owner} {hs : OwnHandlers} {event : String}
    {q : Parameter} {params : List Parameter}
    (hok : EventHandler.event? s m = .ok (event, q, params)) (hrequest : s.request? m.name = none)
    (hf : f ∈ o.methodFindings s hs m) : f.2.number ≠ 314 := by
  simp only [methodFindings, hrequest, EventHandler.findings, EventHandler.inputFindings, hok,
    List.mem_append, List.mem_ite_nil_left, List.mem_ite_nil_right] at hf
  rcases hf with hname | ⟨-, (((⟨-, hsse⟩ | hparams) | ⟨-, hresult⟩) | hduplicate)⟩
  · exact number_of_mem_nameFindings hname
  · simp [List.mem_singleton.mp hsse, Method.finding, AnalysisError.number]
  · exact number_of_mem_findings_assign hparams
  · simp [List.mem_singleton.mp hresult, Method.finding, AnalysisError.number]
  · exact number_of_mem_duplicateFindings hduplicate

/-- The first parameter of an event handler that is called `event` is a finding exactly if its type
is no event, whatever other handlers there are. -/
theorem exists_finding_iff (hstd : s.conventions = .standard) (o : Owner) (hs : OwnHandlers)
    (hevent : m.isEventHandler) {q : Parameter} (hq : q ∈ (m.params s.package).head?)
    (hname : q.name = "event") :
    (∃ f ∈ o.methodFindings s hs m, f.2.code = "PA-E314") ↔ s.eventOf? q.type = none := by
  obtain ⟨params, hparams⟩ := List.head?_eq_some_iff.mp hq
  have hsuffix := (Setting.isSome_eventSuffix? hstd m).trans hevent
  obtain ⟨suffix, hsome⟩ := Option.isSome_iff_exists.mp hsuffix
  have hrequest := Setting.request?_of_eventSuffix? hsome
  have hparam : EventHandler.eventParam? (m.params s.package) = some (q, params) := by
    rw [hparams, EventHandler.eventParam?, if_pos hname]
  constructor
  · rintro ⟨f, hf, hcode⟩
    by_contra hne
    obtain ⟨event, htype⟩ := Option.ne_none_iff_exists'.mp hne
    have hok : EventHandler.event? s m = .ok (event, q, params) := by
      simp only [EventHandler.event?, hparam, htype]
    exact number_of_mem_methodFindings hok hrequest hf
      (AnalysisError.code_eq_firstArgTypeNotEvent_iff.mp hcode)
  · intro htype
    have herror : EventHandler.event? s m = .error
        (q.finding (.eventHandlerFirstArgTypeNotEvent m.receiver m.name q.type.render)) := by
      simp only [EventHandler.event?, hparam, htype]
    refine ⟨q.finding (.eventHandlerFirstArgTypeNotEvent m.receiver m.name q.type.render), ?_,
      AnalysisError.code_eventHandlerFirstArgTypeNotEvent m.receiver m.name q.type.render⟩
    rw [methodFindings, hrequest, if_pos hsuffix, EventHandler.findings, EventHandler.inputFindings,
      herror]
    simp

end Owner

/-! ### Dispatched types -/

/-- The types that a dispatch function takes, none if it is not in order. -/
def HostType.dispatchTypes : HostType → List HostType
  | .func params [.error] _ => params
  | _ => []

private theorem Dispatch.eventNames_eq (p : Package) (m : Method) (type : HostType) :
    eventNames p m type = type.dispatchTypes.map (eventName p) := by
  cases type with
  | func params results variadic =>
    rcases results with _ | ⟨result, _ | ⟨second, results⟩⟩
    · rfl
    · cases result with
      | error => cases params <;> rfl
      | _ => rfl
    · cases result <;> rfl
  | _ => rfl

/-- The types that the dispatch function of a handler takes. -/
def Handler.dispatchTypes (h : Handler) : List HostType :=
  h.inputs.dispatch.toList.flatMap fun slot => slot.type.resolved.dispatchTypes

/-- The events that a handler dispatches are the names of the parameter types of its dispatch
function. -/
theorem Handler.IsReadFrom.dispatchedEvents_eq {s : Setting} {o : Owner} {m : Method} {h : Handler}
    (hread : h.IsReadFrom s o m) :
    h.dispatchedEvents = h.dispatchTypes.map (Dispatch.eventName s.package) := by
  obtain ⟨method, name, ins, outs, -, rfl⟩ := hread
  rw [dispatchTypes]
  simp only [read, HandlerInputs.dispatched, HandlerInputs.read]
  cases hassign : HandlerInputs.assign? s (m.params s.package) with
  | none => rfl
  | some a =>
    simp only [Option.bind_some, HandlerInputs.ofAssignment, Assignment.slot?]
    cases a.param? .dispatch with
    | none => rfl
    | some q =>
      rw [Option.map_some, Option.toList_some, List.flatMap_singleton]
      exact Dispatch.eventNames_eq s.package m q.type

/-- A type that a handler dispatches is a finding exactly if its name is not that of an event
type. -/
theorem Handler.exists_finding_iff {s : Setting} {o : Owner} {m : Method} {h : Handler}
    (hread : h.IsReadFrom s o m) (receiver : String) {type : HostType}
    (htype : type ∈ h.dispatchTypes) :
    (∃ f ∈ h.dispatchFindings s receiver,
        f.2 = .dispatchParamNotEvent receiver h.methodName (Dispatch.eventName s.package type)) ↔
      s.isEventType (Dispatch.eventName s.package type) = false := by
  have hmem : Dispatch.eventName s.package type ∈ h.dispatchedEvents := by
    rw [hread.dispatchedEvents_eq]
    exact List.mem_map_of_mem htype
  rw [dispatchFindings]
  cases hdispatch : h.inputs.dispatch with
  | none => simp [dispatchTypes, hdispatch] at htype
  | some dispatch => simp [hmem]

/-! ### Applications -/

/-- In the signatures of an application its events are accepted exactly if their names lead to
events. -/
structure App.JudgesEvents (p : Package) (app : App) : Prop where
  firstParams : ∀ e ∈ app.events, ∀ o ∈ app.owners,
    ∀ m ∈ (⟨p, .standard⟩ : Setting).methodsOf o.typeName, m.isEventHandler →
    ∀ q ∈ (m.params p).head?, q.name = "event" → q.type.stripPointer.localName = some e.typeName →
    ∀ hs, (∃ f ∈ o.methodFindings ⟨p, .standard⟩ hs m, f.2.code = "PA-E314") ↔
      p.leadsToEvent e.typeName = false
  dispatchTypes : ∀ e ∈ app.events, ∀ o ∈ app.owners, ∀ h ∈ o.own.get.toList ++ o.own.actions,
    ∀ type ∈ h.dispatchTypes, type.stripPointer.localName = some e.typeName →
    ((∃ f ∈ h.dispatchFindings ⟨p, .standard⟩ o.typeName,
      f.2 = .dispatchParamNotEvent o.typeName h.methodName (Dispatch.eventName p type)) ↔
      p.leadsToEvent e.typeName = false)
  declared : ∀ e ∈ app.events, ∃ d, p.typeDecl? e.typeName = some d ∧
    (d.spec.isAlias = false → p.leadsToEvent e.typeName)

/-- **Events are judged in signatures by what their names lead to.** -/
theorem Analysis.judges_events {plugins : List Plugin} {sources : List Source} {app : App}
    (happ : (ofSources .standard plugins sources).app = some app) :
    ∃ p, Package.load sources = .ok p ∧ app.JudgesEvents p := by
  obtain ⟨p, hload, -, happ⟩ := exists_package happ
  refine ⟨p, hload, ?_, ?_, ?_⟩
  · intro e he o ho m hm hevent q hq hname htype hs
    rw [Owner.exists_finding_iff rfl o hs hevent hq hname, ← Setting.isSome_eventOf? htype,
      Option.isSome_eq_false_iff, Option.isNone_iff_eq_none]
  · intro e he o ho h hh type htype hlocal
    rw [(Setting.own_of_mem_owners happ ho).2] at hh
    obtain ⟨m, -, hread⟩ :=
      (o.areReadFrom_handlers ⟨p, .standard⟩ plugins).exists_isReadFrom hh
    rw [Handler.exists_finding_iff hread o.typeName htype, Setting.isEventType_eventName hlocal]
  · intro e he
    rw [Setting.events_of_app? happ] at he
    obtain ⟨d, hd, hrole, -⟩ := Setting.mem_events_iff.mp he
    have hname := Package.name_of_typeDecl? hd
    have hevent : p.hasRole d .event := by
      rw [← Setting.role?_typeRole_eq_some_iff (Package.mem_types_iff.mpr (hname ▸ hd)), hrole,
        TypeRole.role?]
    exact ⟨d, hd, fun halias => Package.leadsToEvent_of_not_isAlias hd halias (hname ▸ hevent)⟩

/-- Events are judged as `Analysis.judges_events` says, in an application with an event handler. -/
theorem Analysis.judges_events_eventfulPage :
    ∃ app, (ofSources .standard [] (sourcesOf eventfulPage)).app = some app ∧
      (∃ o ∈ app.owners, o.own.get.isSome ∧ o.own.actions.map Handler.methodName = ["POSTSave"] ∧
        o.own.eventHandlers.map EventHandler.methodName = ["OnSaved"]) ∧
      ∃ p, Package.load (sourcesOf eventfulPage) = .ok p ∧ app.JudgesEvents p := by
  obtain ⟨app, happ, howner⟩ := exists_app_eventfulPage
  exact ⟨app, happ, howner, judges_events happ⟩

/-! ### An event that is an alias -/

/-- An application with an event that is an alias of another type. -/
def aliasedEvent : List (String × List String) :=
  [("app.go",
    ["package app",
     "type App struct\x7b\x7d",
     "type Saved struct\x7b\x7d",
     "// EventSaved is \"saved\"",
     "type EventSaved = Saved",
     "// PageIndex is /",
     "type PageIndex struct\x7b App *App \x7d",
     "func (PageIndex) OnSaved(event EventSaved) error \x7b\x7d"])]

set_option maxRecDepth 100000 in
/-- The event is listed and is the parameter of an event handler, and its name does not lead to an
event. -/
private theorem exists_app_aliasedEvent :
    ∃ p app, Package.load (sourcesOf aliasedEvent) = .ok p ∧
      (Analysis.ofSources .standard [] (sourcesOf aliasedEvent)).app = some app ∧
      ∃ e ∈ app.events, ∃ o ∈ app.owners, ∃ m ∈ (⟨p, .standard⟩ : Setting).methodsOf o.typeName,
        m.isEventHandler ∧ ∃ q ∈ (m.params p).head?, q.name = "event" ∧
          q.type.stripPointer.localName = some e.typeName ∧ p.leadsToEvent e.typeName = false := by
  have hall : ((Package.load (sourcesOf aliasedEvent)).toOption.any fun p =>
      (Analysis.ofPackage .standard [] p).app.any fun app => app.events.any fun e =>
        app.owners.any fun o => ((⟨p, .standard⟩ : Setting).methodsOf o.typeName).any fun m =>
          m.isEventHandler && (m.params p).head?.any fun q => q.name == "event" &&
            (q.type.stripPointer.localName == some e.typeName &&
              !p.leadsToEvent e.typeName)) = true := by
    rw [Package.load_sourcesOf]
    decide +kernel
  obtain ⟨p, hload, hp⟩ := Package.exists_load_of_any hall
  simp only [Option.any_eq_true, List.any_eq_true, Bool.and_eq_true, beq_iff_eq,
    Bool.not_eq_true'] at hp
  obtain ⟨app, happ, hevent⟩ := hp
  rw [Analysis.ofSources, hload]
  exact ⟨p, app, rfl, happ, hevent⟩

/-- An event of an application need not be accepted as the first parameter of an event handler. -/
theorem Analysis.not_forall_accepted :
    ¬ ∀ (sources : List Source) (p : Package) (app : App), Package.load sources = .ok p →
      (ofSources .standard [] sources).app = some app → ∀ e ∈ app.events, ∀ o ∈ app.owners,
        ∀ m ∈ (⟨p, .standard⟩ : Setting).methodsOf o.typeName, m.isEventHandler →
        ∀ q ∈ (m.params p).head?, q.name = "event" →
        q.type.stripPointer.localName = some e.typeName →
        ∀ hs, ∀ f ∈ o.methodFindings ⟨p, .standard⟩ hs m, f.2.code ≠ "PA-E314" := by
  intro hall
  obtain ⟨p, app, hload, happ, e, he, o, ho, m, hm, hevent, q, hq, hname, htype, hnot⟩ :=
    exists_app_aliasedEvent
  have hnone : (⟨p, .standard⟩ : Setting).eventOf? q.type = none := by
    rw [← Option.isNone_iff_eq_none, ← Option.isSome_eq_false_iff, Setting.isSome_eventOf? htype,
      hnot]
  obtain ⟨f, hf, hcode⟩ :=
    (Owner.exists_finding_iff rfl o OwnHandlers.empty hevent hq hname).mpr hnone
  exact hall _ p app hload happ e he o ho m hm hevent q hq hname htype _ f hf hcode

end GoPages
