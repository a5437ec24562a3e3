import GoPages.Proofs.Owner.Handlers
import GoPages.Proofs.Turns

/-!
# What methods add in their turns

Methods are attached one after another, and `Owner.attached` are the handlers after some of them.

* `Owner.handlerInTurn` and `Owner.eventHandlerInTurn` are what a method adds after others, if
  anything. A plugin sees the handlers of the others and the new one, to which nothing has been
  added yet.
* `Owner.attached_eq`: the handlers of an owner are what its methods add in their turns. Of the GETs
  the first one stays.
* `Owner.mem_eventTypes_attached_iff`: the event types that have a handler are those that methods
  handle, so a method adds its event handler if no earlier one handles its event type
  (`Owner.map_eventType_eventHandlerInTurn`).
-/

namespace GoPages

/-- A method name is that of a handler of requests or that of an event handler. -/
theorem Setting.request?_of_eventSuffix? {s : Setting} {name suffix : String}
    (h : s.eventSuffix? name = some suffix) : s.request? name = none := by
  rw [eventSuffix?] at h
  rw [request?]
  split at h
  · next hkind => rw [hkind]
  · cases h

/-- A method that handles events handles no requests. -/
private theorem Owner.request?_of_eventHandler? {s : Setting} {m : Method} {h : EventHandler}
    (hread : eventHandler? s m = some h) : s.request? m.name = none := by
  obtain ⟨suffix, hsuffix, -⟩ := Option.bind_eq_some_iff.mp hread
  exact Setting.request?_of_eventSuffix? hsuffix

/-- The event type that a method handles. -/
def Owner.handledEvent? (s : Setting) (m : Method) : Option String :=
  (eventHandler? s m).map EventHandler.eventType

/-- The event types that have a handler. -/
def OwnHandlers.eventTypes (hs : OwnHandlers) : List String :=
  hs.eventHandlers.map EventHandler.eventType

/-- An event type is free if no handler reacts to it. -/
theorem OwnHandlers.eventHandler?_eq_none_iff {hs : OwnHandlers} {e : String} :
    hs.eventHandler? e = none ↔ e ∉ hs.eventTypes := by
  simp [eventHandler?, eventTypes]

namespace Owner

/-- The handler of requests that a method declares, if its name is one of such a handler. -/
def handler? (s : Setting) (o : Owner) (m : Method) : Option Handler :=
  (s.request? m.name).map fun (method, name) =>
    Handler.read s m method name (o.handlerRoute m method)

section Turns

variable (s : Setting) (plugins : List Plugin) (o : Owner)

/-- The handlers of an owner after some of its methods. -/
def attached (ms : List Method) : OwnHandlers := ms.foldl (o.attach s plugins) .empty

/-- What plugins see of a handler of requests when it is added to those of other methods. -/
def contextAfter (before : List Method) (h : Handler) : HandlerContext :=
  ⟨o.withHandlers ((o.attached s plugins before).add h), h⟩

/-- What plugins see of an event handler when it is added to those of other methods. -/
def eventContextAfter (before : List Method) (h : EventHandler) : EventHandlerContext :=
  ⟨o.withHandlers ((o.attached s plugins before).addEvent h), h⟩

/-- The handler of requests that a method adds after others. -/
def handlerInTurn (before : List Method) (m : Method) : Option Handler :=
  (o.handler? s m).map fun h => (o.contextAfter s plugins before h).extended plugins

/-- The event handler that a method adds after others: none if its event type has one. -/
def eventHandlerInTurn (before : List Method) (m : Method) : Option EventHandler :=
  ((eventHandler? s m).filter fun h =>
    ((o.attached s plugins before).eventHandler? h.eventType).isNone).map fun h =>
      (o.eventContextAfter s plugins before h).extended plugins

private theorem attached_append_singleton (before : List Method) (m : Method) :
    o.attached s plugins (before ++ [m]) = o.attach s plugins (o.attached s plugins before) m := by
  rw [attached, List.foldl_append]
  rfl

variable {s plugins o} in
/-- What a method adds in its turn is read from it. -/
theorem isReadFrom_of_handlerInTurn {before : List Method} {m : Method} {h : Handler}
    (hh : o.handlerInTurn s plugins before m = some h) : h.IsReadFrom s o m := by
  obtain ⟨bare, hbare, rfl⟩ := Option.map_eq_some_iff.mp hh
  obtain ⟨⟨method, name⟩, hreq, rfl⟩ := Option.map_eq_some_iff.mp hbare
  exact ⟨method, name, _, _, hreq, rfl⟩

variable {s plugins o} in
/-- So is the event handler that it adds. -/
theorem isReadFrom_of_eventHandlerInTurn {before : List Method} {m : Method} {h : EventHandler}
    (hh : o.eventHandlerInTurn s plugins before m = some h) : h.IsReadFrom s m := by
  obtain ⟨bare, hbare, rfl⟩ := Option.map_eq_some_iff.mp hh
  have hread := (Option.filter_eq_some_iff.mp hbare).1
  exact ⟨request?_of_eventHandler? hread, bare, _, hread, rfl⟩

/-- Whether a method adds a handler for certain methods of HTTP is said by its name. -/
theorem isSome_filter_handlerInTurn (before : List Method) (m : Method) (q : HttpMethod → Bool) :
    ((o.handlerInTurn s plugins before m).filter fun h => q h.method).isSome =
      (s.request? m.name).any fun r => q r.1 := by
  rw [Option.isSome_filter, handlerInTurn, handler?, Option.any_map, Option.any_map]
  rfl

/-- One method: it adds what is its own in its turn. -/
theorem attach_attached (before : List Method) (m : Method) :
    o.attach s plugins (o.attached s plugins before) m =
      match o.handlerInTurn s plugins before m with
      | some h => (o.attached s plugins before).add h
      | none =>
        match o.eventHandlerInTurn s plugins before m with
        | some h => (o.attached s plugins before).addEvent h
        | none => o.attached s plugins before := by
  rw [attach, handlerInTurn, handler?]
  split
  · next method name hreq =>
    rw [hreq]
    rfl
  · next hreq =>
    rw [hreq, eventHandlerInTurn]
    cases hevent : eventHandler? s m with
    | none => rfl
    | some h =>
      dsimp only
      rw [attachEventHandler]
      -- an event type that is taken is not taken again
      cases hfree : (o.attached s plugins before).eventHandler? h.eventType with
      | none => simp [Option.filter_some, hfree, eventContextAfter]
      | some e => simp [Option.filter_some, hfree]

/-- **Handlers come in the turns of methods.** The actions of an owner are the handlers of requests
that its methods add in their turns, other than GETs, its GET is the first one of those, and its
event handlers are those that its methods add in their turns. -/
theorem attached_eq (ms : List Method) :
    o.attached s plugins ms =
      { get := (inTurn (o.handlerInTurn s plugins) ms).find? fun h => h.method = .get
        actions := (inTurn (o.handlerInTurn s plugins) ms).filter fun h => h.method ≠ .get
        eventHandlers := inTurn (o.eventHandlerInTurn s plugins) ms } := by
  induction ms using List.reverseRecOn with
  | nil => rfl
  | append_singleton ms m ih =>
    rw [attached_append_singleton, attach_attached]
    simp only [inTurn_append_singleton, List.find?_append, List.filter_append]
    cases hreq : o.handlerInTurn s plugins ms m with
    | some h =>
      -- a method that handles requests adds no event handler
      have hnone : o.eventHandlerInTurn s plugins ms m = none := by
        rw [eventHandlerInTurn, Option.map_eq_none_iff, Option.filter_eq_none_iff]
        intro e he
        rw [handlerInTurn, handler?, request?_of_eventHandler? he] at hreq
        cases hreq
      rw [ih, hnone]
      by_cases hget : h.method = .get <;> simp [OwnHandlers.add, hget]
    | none =>
      cases hevent : o.eventHandlerInTurn s plugins ms m with
      | some e => simp [ih, OwnHandlers.addEvent]
      | none => simp [ih]

/-- The handlers of an owner are those after all of its methods. -/
theorem handlers_eq_attached :
    o.handlers s plugins = o.attached s plugins (s.methodsOf o.typeName) :=
  rfl

end Turns

/-! ### Event types -/

private theorem eventTypes_attached_append_singleton (s : Setting) (plugins : List Plugin)
    (o : Owner) (before : List Method) (m : Method) :
    (o.attached s plugins (before ++ [m])).eventTypes =
      (o.attached s plugins before).eventTypes ++
        ((o.eventHandlerInTurn s plugins before m).map EventHandler.eventType).toList := by
  simp only [OwnHandlers.eventTypes, attached_eq, inTurn_append_singleton, List.map_append,
    Option.toList_map]

/-- A method adds an event handler for its event type if there is none. -/
theorem map_eventType_eventHandlerInTurn (s : Setting) (plugins : List Plugin) (o : Owner)
    (before : List Method) (m : Method) :
    (o.eventHandlerInTurn s plugins before m).map EventHandler.eventType =
      (handledEvent? s m).filter fun e => e ∉ (o.attached s plugins before).eventTypes := by
  rw [eventHandlerInTurn, handledEvent?]
  cases eventHandler? s m with
  | none => rfl
  | some h =>
    by_cases hfree : h.eventType ∈ (o.attached s plugins before).eventTypes
    · simp [Option.filter_some, OwnHandlers.eventHandler?_eq_none_iff, hfree]
    · simp [Option.filter_some, OwnHandlers.eventHandler?_eq_none_iff, hfree,
        EventHandlerContext.extended, eventContextAfter]

/-- The event types that have a handler are those that methods handle. -/
theorem mem_eventTypes_attached_iff {s : Setting} {plugins : List Plugin} {o : Owner}
    {ms : List Method} {e : String} :
    e ∈ (o.attached s plugins ms).eventTypes ↔ ∃ m ∈ ms, handledEvent? s m = some e := by
  induction ms using List.reverseRecOn with
  | nil => simp [attached, OwnHandlers.empty, OwnHandlers.eventTypes]
  | append_singleton ms m ih =>
    rw [eventTypes_attached_append_singleton, map_eventType_eventHandlerInTurn, List.mem_append, ih,
      Option.mem_toList, Option.filter_eq_some_iff, decide_eq_true_eq, ih]
    simp only [List.mem_append, List.mem_singleton, or_and_right, exists_or, exists_eq_left]
    rw [or_and_left, and_iff_left (Classical.em _)]

end Owner

end GoPages
