import GoPages.Owner.Attach
import Mathlib.Data.List.Induction
import Mathlib.Data.List.Nodup

/-!
# The handlers that methods declare

* `Handler.IsReadFrom` and `EventHandler.IsReadFrom` say that a handler is what a method declares,
  up to what plugins add to it.
* `Owner.attach_cases` is all that attaching one method can do: it adds a handler of requests, it
  adds a handler of an event type that had none, or it adds nothing.
* `OwnHandlers.AreReadFrom` is what holds of handlers after any number of methods: each is read from
  one of the methods, and neither method names nor event types are repeated
  (`areReadFrom_handlers`).
-/

namespace GoPages

/-- An item that is put last is new if there are no repetitions. -/
private theorem nodup_append_singleton {α : Type} {as : List α} {a : α} :
    (as ++ [a]).Nodup ↔ a ∉ as ∧ as.Nodup := by
  rw [(List.perm_append_singleton a as).nodup_iff, List.nodup_cons]

/-- The handler is what the method of the owner declares, with additions. -/
def Handler.IsReadFrom (s : Setting) (o : Owner) (m : Method) (h : Handler) : Prop :=
  ∃ method name ins outs, s.request? m.name = some (method, name) ∧
    h = { Handler.read s m method name (o.handlerRoute m method) with
      pluginInputs := ins
      pluginOutputs := outs }

/-- The event handler is what the method declares, with additions. -/
def EventHandler.IsReadFrom (s : Setting) (m : Method) (h : EventHandler) : Prop :=
  s.request? m.name = none ∧ ∃ h' ins, Owner.eventHandler? s m = some h' ∧
    h = { h' with pluginInputs := ins }

/-- A handler has the name of its method. -/
theorem Handler.IsReadFrom.methodName {s : Setting} {o : Owner} {m : Method} {h : Handler}
    (hread : h.IsReadFrom s o m) : h.methodName = m.name := by
  obtain ⟨method, name, ins, outs, -, rfl⟩ := hread
  rfl

/-- A handler that a method declares is not marked as inherited. -/
theorem Handler.IsReadFrom.inheritedFrom {s : Setting} {o : Owner} {m : Method} {h : Handler}
    (hread : h.IsReadFrom s o m) : h.inheritedFrom = none := by
  obtain ⟨method, name, ins, outs, -, rfl⟩ := hread
  rfl

/-- What an event handler is read from says what it handles. -/
theorem Owner.eventHandler?_eq_some {s : Setting} {m : Method} {h : EventHandler}
    (hsome : Owner.eventHandler? s m = some h) :
    h.methodName = m.name ∧ h.inheritedFrom = none ∧ s.isEventType h.eventType := by
  rw [Owner.eventHandler?, Option.bind_eq_some_iff] at hsome
  obtain ⟨suffix, -, hsome⟩ := hsome
  rw [EventHandler.read?, EventHandler.event?] at hsome
  split at hsome
  · cases hsome
  · next event p params hevent =>
    split at hevent
    · cases hevent
    · split at hevent
      · cases hevent
      · next q ps _ e he =>
        cases hevent
        cases hsome
        exact ⟨rfl, rfl, (Option.filter_eq_some_iff.mp he).2⟩

/-- An event handler has the name of its method. -/
theorem EventHandler.IsReadFrom.methodName {s : Setting} {m : Method} {h : EventHandler}
    (hread : h.IsReadFrom s m) : h.methodName = m.name := by
  obtain ⟨-, h', ins, hsome, rfl⟩ := hread
  exact (Owner.eventHandler?_eq_some hsome).1

/-- An event handler that a method declares is not marked as inherited. -/
theorem EventHandler.IsReadFrom.inheritedFrom {s : Setting} {m : Method} {h : EventHandler}
    (hread : h.IsReadFrom s m) : h.inheritedFrom = none := by
  obtain ⟨-, h', ins, hsome, rfl⟩ := hread
  exact (Owner.eventHandler?_eq_some hsome).2.1

/-- A method that is read as an event handler handles an event type. -/
theorem EventHandler.IsReadFrom.isEventType {s : Setting} {m : Method} {h : EventHandler}
    (hread : h.IsReadFrom s m) : s.isEventType h.eventType := by
  obtain ⟨-, h', ins, hsome, rfl⟩ := hread
  exact (Owner.eventHandler?_eq_some hsome).2.2

/-! ### One method -/

/-- All that attaching a method can do. -/
theorem Owner.attach_cases (s : Setting) (plugins : List Plugin) (o : Owner) (hs : OwnHandlers)
    (m : Method) :
    (∃ h : Handler, h.IsReadFrom s o m ∧ o.attach s plugins hs m = hs.add h) ∨
    (∃ h : EventHandler, h.IsReadFrom s m ∧ hs.eventHandler? h.eventType = none ∧
      o.attach s plugins hs m = hs.addEvent h) ∨
    o.attach s plugins hs m = hs := by
  rw [attach]
  split
  · next method name hreq => exact .inl ⟨_, ⟨method, name, _, _, hreq, rfl⟩, rfl⟩
  · next hreq =>
    split
    · next h hh =>
      rw [attachEventHandler]
      split
      · exact .inr (.inr rfl)
      · next hnone =>
        refine .inr (.inl ⟨_, ⟨hreq, h, _, hh, rfl⟩, ?_, rfl⟩)
        simpa [EventHandlerContext.extended] using hnone
    · exact .inr (.inr rfl)

/-! ### All methods -/

namespace OwnHandlers

/-- The method names of actions and event handlers. -/
def methodNames (hs : OwnHandlers) : List String :=
  hs.actions.map Handler.methodName ++ hs.eventHandlers.map EventHandler.methodName

/-- Every handler is read from one of the methods, each of which gives at most one, and no event
type has several handlers. -/
structure AreReadFrom (s : Setting) (o : Owner) (ms : List Method) (hs : OwnHandlers) : Prop where
  get : ∀ h ∈ hs.get, h.method = .get ∧ ∃ m ∈ ms, h.IsReadFrom s o m
  actions : ∀ h ∈ hs.actions, h.method ≠ .get ∧ ∃ m ∈ ms, h.IsReadFrom s o m
  eventHandlers : ∀ h ∈ hs.eventHandlers, ∃ m ∈ ms, h.IsReadFrom s m
  nodup_methodNames : (ms.map Method.name).Nodup → hs.methodNames.Nodup
  nodup_eventTypes : (hs.eventHandlers.map EventHandler.eventType).Nodup

namespace AreReadFrom

variable {s : Setting} {o : Owner} {ms : List Method} {hs : OwnHandlers} {m : Method}

/-- No methods declare no handlers. -/
theorem empty (s : Setting) (o : Owner) : OwnHandlers.empty.AreReadFrom s o [] :=
  ⟨by simp [OwnHandlers.empty], by simp [OwnHandlers.empty], by simp [OwnHandlers.empty],
    by simp [OwnHandlers.empty, methodNames], by simp [OwnHandlers.empty]⟩

private theorem mem_of_mem_methodNames (h : hs.AreReadFrom s o ms) {name : String}
    (hmem : name ∈ hs.methodNames) : name ∈ ms.map Method.name := by
  rw [methodNames, List.mem_append, List.mem_map, List.mem_map] at hmem
  rcases hmem with ⟨a, ha, rfl⟩ | ⟨e, he, rfl⟩
  · obtain ⟨-, m, hm, hread⟩ := h.actions a ha
    exact hread.methodName ▸ List.mem_map_of_mem hm
  · obtain ⟨m, hm, hread⟩ := h.eventHandlers e he
    exact hread.methodName ▸ List.mem_map_of_mem hm

/-- A method that adds nothing may be ignored. -/
theorem ignore (h : hs.AreReadFrom s o ms) (m : Method) : hs.AreReadFrom s o (ms ++ [m]) where
  get a ha := by
    obtain ⟨hget, m, hm, hread⟩ := h.get a ha
    exact ⟨hget, m, List.mem_append_left _ hm, hread⟩
  actions a ha := by
    obtain ⟨hne, m, hm, hread⟩ := h.actions a ha
    exact ⟨hne, m, List.mem_append_left _ hm, hread⟩
  eventHandlers e he := by
    obtain ⟨m, hm, hread⟩ := h.eventHandlers e he
    exact ⟨m, List.mem_append_left _ hm, hread⟩
  nodup_methodNames hnodup := by
    rw [List.map_append] at hnodup
    exact h.nodup_methodNames hnodup.of_append_left
  nodup_eventTypes := h.nodup_eventTypes

/-- The name of a further method is new. -/
theorem notMem_methodNames (h : hs.AreReadFrom s o ms)
    (hnodup : ((ms ++ [m]).map Method.name).Nodup) : m.name ∉ hs.methodNames := by
  intro hmem
  rw [List.map_append, List.nodup_append] at hnodup
  exact hnodup.2.2 _ (h.mem_of_mem_methodNames hmem) _ (by simp) rfl

/-- A handler of requests is added with the name of its method, which is new. -/
theorem add (h : hs.AreReadFrom s o ms) {a : Handler} (ha : a.IsReadFrom s o m) :
    (hs.add a).AreReadFrom s o (ms ++ [m]) := by
  have hold := h.ignore m
  have hnew : ∃ m' ∈ ms ++ [m], a.IsReadFrom s o m' := ⟨m, by simp, ha⟩
  rw [OwnHandlers.add]
  split
  · next hget =>
    refine ⟨fun b hb => ?_, hold.actions, hold.eventHandlers, hold.nodup_methodNames,
      hold.nodup_eventTypes⟩
    rcases Option.or_eq_some_iff.mp hb with hb | ⟨-, hb⟩
    · exact hold.get b hb
    · cases hb
      exact ⟨hget, hnew⟩
  · next hne =>
    refine ⟨hold.get, fun b hb => ?_, hold.eventHandlers, fun hnodup => ?_, hold.nodup_eventTypes⟩
    · rcases List.mem_append.mp hb with hb | hb
      · exact hold.actions b hb
      · rw [List.mem_singleton.mp hb]
        exact ⟨hne, hnew⟩
    · have hperm : (OwnHandlers.methodNames { hs with actions := hs.actions ++ [a] }).Perm
          (m.name :: hs.methodNames) := by
        simp only [methodNames, List.map_append, List.map_cons, List.map_nil, List.append_assoc,
          List.singleton_append, ha.methodName]
        exact List.perm_middle
      exact hperm.nodup_iff.mpr
        (List.nodup_cons.mpr ⟨h.notMem_methodNames hnodup, hold.nodup_methodNames hnodup⟩)

/-- An event handler is added if its event type has none. -/
theorem addEvent (h : hs.AreReadFrom s o ms) {e : EventHandler} (he : e.IsReadFrom s m)
    (hfree : hs.eventHandler? e.eventType = none) :
    (hs.addEvent e).AreReadFrom s o (ms ++ [m]) := by
  have hold := h.ignore m
  refine ⟨hold.get, hold.actions, fun f hf => ?_, fun hnodup => ?_, ?_⟩
  · rcases List.mem_append.mp hf with hf | hf
    · exact hold.eventHandlers f hf
    · rw [List.mem_singleton.mp hf]
      exact ⟨m, by simp, he⟩
  · have hnames : (hs.addEvent e).methodNames = hs.methodNames ++ [m.name] := by
      simp [methodNames, OwnHandlers.addEvent, he.methodName]
    rw [hnames]
    exact nodup_append_singleton.mpr ⟨h.notMem_methodNames hnodup, hold.nodup_methodNames hnodup⟩
  · rw [OwnHandlers.addEvent, List.map_append, List.map_singleton]
    refine nodup_append_singleton.mpr ⟨fun hmem => ?_, hold.nodup_eventTypes⟩
    obtain ⟨f, hf, htype⟩ := List.mem_map.mp hmem
    simpa [htype] using List.find?_eq_none.mp hfree f hf

/-- Attaching a method keeps to the methods, whatever the plugins add. -/
theorem attach (h : hs.AreReadFrom s o ms) (plugins : List Plugin) (m : Method) :
    (o.attach s plugins hs m).AreReadFrom s o (ms ++ [m]) := by
  rcases o.attach_cases s plugins hs m with ⟨a, ha, heq⟩ | ⟨e, he, hfree, heq⟩ | heq
  · rw [heq]
    exact h.add ha
  · rw [heq]
    exact h.addEvent he hfree
  · rw [heq]
    exact h.ignore m

end AreReadFrom

end OwnHandlers

/-- The handlers that an owner declares are read from its methods. -/
theorem Owner.areReadFrom_handlers (s : Setting) (plugins : List Plugin) (o : Owner) :
    (o.handlers s plugins).AreReadFrom s o (s.methodsOf o.typeName) := by
  rw [handlers]
  -- the last method is attached to what the methods before it have given
  induction s.methodsOf o.typeName using List.reverseRecOn with
  | nil => exact .empty s o
  | append_singleton ms m ih =>
    rw [List.foldl_append]
    exact ih.attach plugins m

end GoPages
