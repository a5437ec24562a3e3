import GoPages.Proofs.Owner.Bare
import GoPages.Proofs.Signature.Body
import Mathlib.Data.List.ReduceOption

/-!
# The slots of a handler

The slots of a handler are its parameters and results, whatever roles they have. A handler that is
read from a method has no others than the parameters and results of the method (`Method.HasSlot`):
giving them roles only selects some of them.
-/

namespace GoPages

/-! ### Slots -/

/-- The parameters that are there. -/
def HandlerInputs.slots (i : HandlerInputs) : List Slot :=
  [i.request, i.sse, i.sessionToken, i.session, i.path, i.query, i.signals, i.dispatch].reduceOption

/-- The results that are there. -/
def HandlerOutputs.slots (o : HandlerOutputs) : List Slot :=
  [o.err, o.body, o.head, o.redirect, o.redirectStatus, o.newSession, o.closeSession,
    o.enableBackgroundStreaming, o.disableRefreshAfterHidden].reduceOption

/-- The parameters and results of a handler, with those that plugins have added. -/
def Handler.slots (h : Handler) : List Slot :=
  h.inputs.slots ++ h.outputs.slots ++ h.pluginInputs ++ h.pluginOutputs

/-- The parameters and results of an event handler, with those that plugins have added. -/
def EventHandler.slots (h : EventHandler) : List Slot :=
  [h.event, h.sse, h.sessionToken, h.session, h.err].reduceOption ++ h.pluginInputs

/-- The parameters and results of a hook. -/
def Hook.slots (h : Hook) : List Slot := h.inputs ++ h.outputs

/-- The slot is a parameter or a result of the method. -/
def Method.HasSlot (p : Package) (m : Method) (slot : Slot) : Prop :=
  ∃ param ∈ m.params p ++ m.results p, slot = param.slot

/-! ### Parameters -/

/-- A slot with a role is a parameter with the role. -/
theorem Assignment.exists_of_slot? {a : Assignment} {role : InputRole} {slot : Slot}
    (h : a.slot? role = some slot) : ∃ p ∈ a.assigned.map Prod.snd, slot = p.slot := by
  obtain ⟨p, hp, rfl⟩ := Option.map_eq_some_iff.mp h
  obtain ⟨before, after, hsplit, -⟩ := List.lookup_eq_some_iff.mp hp
  exact ⟨p, List.mem_map.mpr ⟨(role, p), by simp [hsplit], rfl⟩, rfl⟩

/-- The parameters with a role are some of those that have been given. -/
theorem Setting.mem_of_mem_assigned {s : Setting} {roles : List InputRole}
    {params : List Parameter} {p : Parameter}
    (h : p ∈ (s.assign roles params).assigned.map Prod.snd) : p ∈ params := by
  rw [← s.params_assign_append_rest roles params]
  exact List.mem_append_left _ h

namespace HandlerInputs

variable {s : Setting} {m : Method}

/-- The request is the first parameter, and the others have their roles in order or none. -/
theorem assigned_append_rest {params : List Parameter} {a : Assignment}
    (ha : assign? s params = some a) : a.assigned.map Prod.snd ++ a.rest = params := by
  unfold assign? at ha
  split at ha
  · contradiction
  · next request params =>
    rw [Option.ite_none_right_eq_some] at ha
    obtain ⟨-, ha⟩ := ha
    cases ha
    exact congrArg (request :: ·) (s.params_assign_append_rest roles params)

/-- A parameter with a role is one of the parameters. -/
private theorem mem_of_mem_assigned {params : List Parameter} {a : Assignment}
    (ha : assign? s params = some a) {p : Parameter} (hp : p ∈ a.assigned.map Prod.snd) :
    p ∈ params :=
  assigned_append_rest ha ▸ List.mem_append_left _ hp

/-- The slots of parameters are those of the method. -/
theorem hasSlot_read {slot : Slot} (h : slot ∈ (read s m).slots) : m.HasSlot s.package slot := by
  rw [read] at h
  split at h
  · next a ha =>
    have hroles :
        (ofAssignment a).slots = ((InputRole.request :: roles).map a.slot?).reduceOption :=
      rfl
    rw [hroles, List.reduceOption_mem_iff] at h
    obtain ⟨role, -, hslot⟩ := List.mem_map.mp h
    obtain ⟨p, hp, rfl⟩ := Assignment.exists_of_slot? hslot
    exact ⟨p, List.mem_append_left _ (mem_of_mem_assigned ha hp), rfl⟩
  · cases h

end HandlerInputs

/-! ### Results -/

namespace HandlerOutputs

variable {s : Setting} {m : Method}

/-- The results with a role are results of the method. -/
theorem mem_results_of_mem_filled {method : HttpMethod} {role : OutputRole} {r : Parameter}
    (h : (role, r) ∈ filled s m method) : r ∈ m.results s.package := by
  obtain ⟨entry, hentry, hsome⟩ := List.mem_filterMap.mp h
  obtain ⟨earlier, q, later, hresults, rfl⟩ := mem_withEarlier_iff.mp hentry
  rw [id_eq, filled?] at hsome
  split at hsome
  · cases hsome
  · cases hsome
    rw [hresults]
    exact List.mem_append_right _ List.mem_cons_self

/-- So are the slots of results. -/
theorem hasSlot_read {method : HttpMethod} {slot : Slot} (h : slot ∈ (read s m method).slots) :
    m.HasSlot s.package slot := by
  have hlookup {found : List (OutputRole × Parameter)} (hfound : ∀ r ∈ found, r ∈ filled s m method)
      {role : OutputRole} (hslot : (found.lookup role).map Parameter.slot = some slot) :
      m.HasSlot s.package slot := by
    obtain ⟨r, hr, rfl⟩ := Option.map_eq_some_iff.mp hslot
    obtain ⟨before, after, hsplit, -⟩ := List.lookup_eq_some_iff.mp hr
    have hmem : (role, r) ∈ found := by simp [hsplit]
    exact ⟨r, List.mem_append_right _ (mem_results_of_mem_filled (hfound _ hmem)), rfl⟩
  -- the error is the first result of its role, and every other slot the last one of its role
  have hroles : (read s m method).slots =
      (((filled s m method).lookup .err).map Parameter.slot :: OutputRole.all.tail.map fun role =>
        ((filled s m method).reverse.lookup role).map Parameter.slot).reduceOption := rfl
  rw [hroles, List.reduceOption_mem_iff] at h
  rcases List.mem_cons.mp h with herr | hlast
  · exact hlookup (fun _ hr => hr) herr.symm
  · obtain ⟨role, -, hslot⟩ := List.mem_map.mp hlast
    exact hlookup (fun _ hr => List.mem_reverse.mp hr) hslot

end HandlerOutputs

/-! ### Handlers -/

/-- A handler has no other slots. -/
theorem Handler.hasSlot_read {s : Setting} {m : Method} {method : HttpMethod} {name route : String}
    {slot : Slot} (h : slot ∈ (read s m method name route).slots) : m.HasSlot s.package slot := by
  have hslots : (read s m method name route).slots =
      (HandlerInputs.read s m).slots ++ (HandlerOutputs.read s m method).slots := by
    simp [slots, read]
  rw [hslots, List.mem_append] at h
  exact h.elim HandlerInputs.hasSlot_read HandlerOutputs.hasSlot_read

namespace EventHandler

variable {s : Setting} {m : Method}

/-- The event is the first parameter, by its name. -/
theorem eventParam?_eq_some_iff {params rest : List Parameter} {p : Parameter} :
    eventParam? params = some (p, rest) ↔ params = p :: rest ∧ p.name = "event" := by
  cases params with
  | nil => simp [eventParam?]
  | cons q qs =>
    by_cases hname : q.name = "event"
    · simp only [eventParam?, if_pos hname, Option.some.injEq, Prod.mk.injEq, List.cons.injEq]
      exact ⟨fun h => ⟨h, h.1 ▸ hname⟩, fun h => h.1⟩
    · simp only [eventParam?, if_neg hname, reduceCtorEq, List.cons.injEq, false_iff]
      exact fun h => hname (h.1.1 ▸ h.2)

/-- The parameter for the event is the first one. -/
theorem params_of_event? {event : String} {p : Parameter} {params : List Parameter}
    (h : event? s m = .ok (event, p, params)) : m.params s.package = p :: params := by
  rw [event?] at h
  split at h
  · cases h
  · next q rest hparam =>
    split at h
    · cases h
    · cases h
      exact (eventParam?_eq_some_iff.mp hparam).1

private theorem mem_results_of_result? {r : Parameter} (h : result? s m = some r) :
    r ∈ m.results s.package := by
  rw [result?] at h
  split at h
  · next q hresults =>
    rw [Option.ite_none_right_eq_some] at h
    obtain ⟨-, h⟩ := h
    cases h
    rw [hresults]
    exact List.mem_singleton_self _
  · cases h

/-- Nor has an event handler. -/
theorem hasSlot_read? {name : String} {h : EventHandler} (hread : read? s m name = some h)
    {slot : Slot} (hslot : slot ∈ h.slots) : m.HasSlot s.package slot := by
  rw [read?] at hread
  split at hread
  · cases hread
  · next event p params hevent =>
    have hparams := params_of_event? hevent
    have hrole {role : InputRole} (hrole : (assign s params).slot? role = some slot) :
        m.HasSlot s.package slot := by
      obtain ⟨q, hq, rfl⟩ := Assignment.exists_of_slot? hrole
      refine ⟨q, List.mem_append_left _ ?_, rfl⟩
      rw [hparams]
      exact List.mem_cons_of_mem _ (Setting.mem_of_mem_assigned hq)
    cases hread
    simp only [slots, List.append_nil, List.reduceOption_mem_iff, List.mem_cons, List.not_mem_nil,
      or_false] at hslot
    rcases hslot with hslot | hslot | hslot | hslot | hslot
    · cases hslot
      exact ⟨p, List.mem_append_left _ (by simp [hparams]), rfl⟩
    · exact hrole hslot.symm
    · exact hrole hslot.symm
    · exact hrole hslot.symm
    · obtain ⟨r, hr, rfl⟩ := Option.map_eq_some_iff.mp hslot.symm
      exact ⟨r, List.mem_append_right _ (mem_results_of_result? hr), rfl⟩

end EventHandler

/-- Nor has a hook. -/
theorem Hook.hasSlot_read {s : Setting} {m : Method} {slot : Slot} (h : slot ∈ (read s m).slots) :
    m.HasSlot s.package slot := by
  have hslots : (read s m).slots = (m.params s.package ++ m.results s.package).map Parameter.slot :=
    List.map_append.symm
  rw [hslots] at h
  obtain ⟨param, hparam, rfl⟩ := List.mem_map.mp h
  exact ⟨param, hparam, rfl⟩

end GoPages
