import GoPages.Proofs.Package.Places
import GoPages.Proofs.Signature.Slots

/-!
# Where findings about methods stand

A method is given a finding at its name, at a parameter or at a result. So all findings about the
methods of an owner are at places of these methods (`Owner.exists_of_mem_findings`), and a place
says which method a finding is about.
-/

namespace GoPages

namespace Method

variable {m : Method}

/-- The place of a method is that of its name. -/
theorem location_mem_places : m.location ∈ m.decl.places := List.mem_cons_self

/-- The place of a parameter is one of the places of its method. -/
private theorem mem_places_of_mem_params {p : Package} {param : Parameter}
    (h : param ∈ m.params p) : param.location ∈ m.decl.places := by
  obtain ⟨decl, hdecl, rfl⟩ := List.mem_map.mp h
  exact List.mem_cons_of_mem _ (List.mem_map_of_mem (List.mem_append_left _ hdecl))

private theorem mem_places_of_mem_results {p : Package} {result : Parameter}
    (h : result ∈ m.results p) : result.location ∈ m.decl.places := by
  obtain ⟨decl, hdecl, rfl⟩ := List.mem_map.mp h
  exact List.mem_cons_of_mem _ (List.mem_map_of_mem (List.mem_append_right _ hdecl))

/-- All findings are at places of the method. -/
def Notes (m : Method) (found : List Finding) : Prop := ∀ f ∈ found, f.1 ∈ m.decl.places

namespace Notes

variable {found found' : List Finding}

/-- No finding stands anywhere else. -/
theorem nil : m.Notes [] := List.forall_mem_nil _

/-- A finding about a method stands at its name. -/
theorem here {e : AnalysisError} : m.Notes [m.finding e] :=
  List.forall_mem_singleton.mpr location_mem_places

/-- The findings of two parts stand at places of the method if those of each do. -/
theorem append (h : m.Notes found) (h' : m.Notes found') : m.Notes (found ++ found') :=
  List.forall_mem_append.mpr ⟨h, h'⟩

/-- So do the findings of either part. -/
theorem ite {p : Prop} [Decidable p] (h : m.Notes found) (h' : m.Notes found') :
    m.Notes (if p then found else found') := by
  split
  · exact h
  · exact h'

/-- So do findings item by item. -/
theorem flatMap {α : Type} {as : List α} {g : α → List Finding} (h : ∀ a ∈ as, m.Notes (g a)) :
    m.Notes (as.flatMap g) := List.forall_mem_flatMap.mpr h

/-- Findings at a parameter or a result of the method. -/
theorem atParam {p : Parameter} (hp : p.location ∈ m.decl.places) (es : List AnalysisError) :
    m.Notes (es.map p.finding) := List.forall_mem_map.mpr fun _ _ => hp

end Notes

/-! ### Signatures -/

variable {s : Setting} (m)

private theorem notes_roleFindings (role : InputRole) {p : Parameter}
    (hp : p.location ∈ m.decl.places) : m.Notes (s.roleFindings m role p) := by
  cases role with
  | request | sse => exact .nil
  | sessionToken | session => exact .ite .nil (.atParam hp [_])
  | struct k => exact .atParam hp _
  | dispatch => exact .atParam hp _

/-- The findings about an assignment are at the parameters that it gives roles to, and at the
others. -/
theorem notes_assignment {a : Assignment}
    (ha : ∀ p ∈ a.assigned.map Prod.snd ++ a.rest, p ∈ m.params s.package) :
    m.Notes (a.findings s m) := by
  have hplace : ∀ p ∈ a.assigned.map Prod.snd ++ a.rest, p.location ∈ m.decl.places :=
    fun p hp => mem_places_of_mem_params (ha p hp)
  rw [Assignment.findings]
  refine .append (.flatMap fun rp hrp => ?_) (List.forall_mem_map.mpr fun p hp => ?_)
  · exact m.notes_roleFindings rp.1
      (hplace rp.2 (List.mem_append_left _ (List.mem_map_of_mem hrp)))
  · exact hplace p (List.mem_append_right _ hp)

private theorem notes_inputFindings : m.Notes (HandlerInputs.findings s m) := by
  rw [HandlerInputs.findings]
  split
  · next a ha =>
    refine m.notes_assignment fun p hp => ?_
    rwa [HandlerInputs.assigned_append_rest ha] at hp
  · exact .here

private theorem notes_resultFindings (method : HttpMethod) (before : List Parameter) {r : Parameter}
    (hr : r ∈ m.results s.package) :
    m.Notes (HandlerOutputs.resultFindings s m method before r) := by
  rw [HandlerOutputs.resultFindings]
  split
  · exact .atParam (mem_places_of_mem_results hr) [_]
  · exact .ite .here .nil
  · exact .nil

private theorem notes_jointFindings (method : HttpMethod) (sse : Option Slot) :
    m.Notes (HandlerOutputs.jointFindings s m method sse) := by
  have hnote (e : String → AnalysisError) (role : OutputRole) (slot : Option Slot) :
      m.Notes (HandlerOutputs.noteOutput m e role slot) := .ite .here .nil
  rw [HandlerOutputs.jointFindings]
  refine .append (.append (.append ?_ ?_) ?_) ?_
  · exact .ite .here .nil
  · exact .ite .here .nil
  · exact .ite (.append (hnote _ _ _) (hnote _ _ _)) .nil
  · exact .ite .nil (.append (hnote _ _ _) (hnote _ _ _))

private theorem notes_handlerFindings (method : HttpMethod) :
    m.Notes (Handler.findings s m method) := by
  have hresults : m.Notes
      (HandlerOutputs.withEarlier (HandlerOutputs.resultFindings s m method) []
        (m.results s.package)).flatten := by
    intro f hf
    obtain ⟨found, hfound, hf⟩ := List.mem_flatten.mp hf
    obtain ⟨before, r, later, hresults, rfl⟩ := HandlerOutputs.mem_withEarlier_iff.mp hfound
    have hr : r ∈ m.results s.package := by
      rw [hresults]
      exact List.mem_append_right _ List.mem_cons_self
    exact m.notes_resultFindings method before hr f hf
  exact m.notes_inputFindings.append (hresults.append (m.notes_jointFindings method _))

/-- What is wrong with the first parameter of an event handler stands there, or at the method if
there is no such parameter. -/
theorem mem_places_of_event? {found : Finding} (h : EventHandler.event? s m = .error found) :
    found.1 ∈ m.decl.places := by
  rw [EventHandler.event?] at h
  split at h
  · rw [← Except.error.inj h]
    exact location_mem_places
  · next p params hparam =>
    split at h
    · have hparams : m.params s.package = p :: params :=
        (EventHandler.eventParam?_eq_some_iff.mp hparam).1
      rw [← Except.error.inj h]
      exact mem_places_of_mem_params (hparams ▸ List.mem_cons_self)
    · contradiction

private theorem notes_eventHandlerFindings : m.Notes (EventHandler.findings s m) := by
  have hinputs : m.Notes (EventHandler.inputFindings s m) := by
    rw [EventHandler.inputFindings]
    split
    · next found hfound =>
      intro f hf
      rw [List.mem_singleton.mp hf]
      exact m.mem_places_of_event? hfound
    · next event p params hevent =>
      refine .append (.ite .nil .here) (m.notes_assignment fun q hq => ?_)
      rw [EventHandler.assign, Setting.params_assign_append_rest] at hq
      rw [EventHandler.params_of_event? hevent]
      exact List.mem_cons_of_mem _ hq
  exact hinputs.append (.ite .nil .here)

private theorem notes_nameFindings : m.Notes (s.nameFindings m) := by
  rw [Setting.nameFindings]
  split
  · exact .ite .nil .here
  · exact .ite .nil .here
  · exact .nil

end Method

/-! ### Methods of an owner -/

namespace Owner

variable {s : Setting} (o : Owner) (m : Method)

private theorem notes_routeFindings (method : HttpMethod) : m.Notes (o.routeFindings m method) := by
  have hnesting (route : String) : m.Notes (o.nestingFindings m route) := by
    rw [nestingFindings]
    split
    · exact .nil
    · exact .ite .nil .here
  rw [routeFindings]
  refine .ite .nil ?_
  split
  · exact .here
  · exact .here
  · exact hnesting _

private theorem notes_duplicateFindings (hs : OwnHandlers) :
    m.Notes (duplicateFindings s hs m) := by
  rw [duplicateFindings]
  split
  · exact .nil
  · split
    · exact .nil
    · exact .here

/-- All that is found about a method stands at its places. -/
private theorem notes_methodFindings (hs : OwnHandlers) : m.Notes (o.methodFindings s hs m) := by
  refine m.notes_nameFindings.append ?_
  split
  · exact (m.notes_handlerFindings _).append (o.notes_routeFindings m _)
  · exact .ite (m.notes_eventHandlerFindings.append (notes_duplicateFindings m hs)) .nil

/-- A finding about the methods of an owner is at a place of one of them. -/
theorem exists_of_mem_findings {plugins : List Plugin} {f : Finding}
    (hf : f ∈ o.findings s plugins) : ∃ m ∈ s.methodsOf o.typeName, f.1 ∈ m.decl.places := by
  obtain ⟨before, m, after, hsplit, hf⟩ := mem_findingsAfter_iff.mp hf
  exact ⟨m, by simp [hsplit], o.notes_methodFindings m _ f hf⟩

end Owner

end GoPages
