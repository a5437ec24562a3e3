import GoPages.Proofs.Signature.Body

/-!
# Results that are in order

Nothing is found about the results of a handler exactly if they keep to certain rules, which
`HandlerOutputs.AreInOrder` lists. The rules are about the results as they are written. They mention
neither in which order the results are judged nor which of them have been accepted before.

* `HandlerOutputs.resultFindings_eq_nil_iff`: what is found about one result after those before it.
* `getElem?_filter_eq_some_iff`: the number of a result among those of a kind is how many of the
  kind stand before it. So what is said about a result after those before it can be said about the
  first and the second result of a kind (`HandlerOutputs.forall_resultFindings_iff`).
* If every result has its role, the outputs that are there are those whose names are returned
  (`HandlerOutputs.isSome_slot?_read`), and what is found about all results together can be read off
  the names (`HandlerOutputs.jointFindings_eq_nil_iff`).
* `HandlerOutputs.findings_eq_nil_iff` is the main result.
-/

namespace GoPages

/-! ### Numbering -/

/-- In a choice from a list, an element has as its number how many chosen ones stand before it. -/
theorem getElem?_filter_eq_some_iff {α : Type} {p : α → Bool} {as : List α} {k : ℕ} {a : α} :
    (as.filter p)[k]? = some a ↔
      ∃ earlier later, as = earlier ++ a :: later ∧ p a ∧ (earlier.filter p).length = k := by
  constructor
  · intro h
    obtain ⟨hk, ha⟩ := List.getElem?_eq_some_iff.mp h
    have hsplit := (List.take_append_drop k (as.filter p)).symm
    rw [List.drop_eq_getElem_cons hk, ha] at hsplit
    obtain ⟨front, back, rfl, hfront, hback⟩ := List.filter_eq_append_iff.mp hsplit
    obtain ⟨between, later, rfl, hbetween, hpa, -⟩ := List.filter_eq_cons_iff.mp hback
    refine ⟨front ++ between, later, (List.append_assoc _ _ _).symm, hpa, ?_⟩
    rw [List.filter_append, List.filter_eq_nil_iff.mpr hbetween, hfront, List.append_nil,
      List.length_take_of_le (Nat.le_of_lt hk)]
  · rintro ⟨earlier, later, rfl, hpa, rfl⟩
    rw [List.filter_append, List.filter_cons_of_pos hpa,
      List.getElem?_append_right (Nat.le_refl _), Nat.sub_self, List.getElem?_cons_zero]

/-- No element stands after exactly `k` chosen ones and is chosen iff not more than `k` are. -/
theorem length_filter_le_iff {α : Type} {p : α → Bool} {as : List α} {k : ℕ} :
    (as.filter p).length ≤ k ↔
      ∀ earlier a later, as = earlier ++ a :: later → p a → (earlier.filter p).length ≠ k := by
  rw [← List.getElem?_eq_none_iff, Option.eq_none_iff_forall_ne_some]
  simp only [ne_eq, getElem?_filter_eq_some_iff, not_exists, not_and]
  exact ⟨fun h earlier a later => h a earlier later, fun h a earlier later => h earlier a later⟩

/-! ### Names -/

/-- A role is known by its name. -/
private theorem OutputRole.ofName?_eq_some_iff {name : String} {role : OutputRole} :
    ofName? name = some role ↔ role.text = name := by
  constructor
  · intro h
    simpa using List.find?_some h
  · rintro rfl
    exact ofName?_text role

private theorem OutputRole.text_inj {a b : OutputRole} : a.text = b.text ↔ a = b := by
  rw [← ofName?_eq_some_iff, ofName?_text, Option.some_inj, eq_comm]

/-- Does the method return a result with the name of the role that is not an error? -/
def Method.Returns (m : Method) (p : Package) (role : OutputRole) : Prop :=
  ∃ r ∈ m.results p, r.type.isError = false ∧ r.name = role.text

namespace HandlerOutputs

variable {s : Setting} {m : Method} {method : HttpMethod} {sse : Option Slot}

/-- The output that has a role. -/
def slot? (o : HandlerOutputs) : OutputRole → Option Slot
  | .err => o.err
  | .body => o.body
  | .head => o.head
  | .redirect => o.redirect
  | .redirectStatus => o.redirectStatus
  | .newSession => o.newSession
  | .closeSession => o.closeSession
  | .enableBackgroundStreaming => o.enableBackgroundStreaming
  | .disableRefreshAfterHidden => o.disableRefreshAfterHidden

/-- The results that are components, in their order. -/
def components (s : Setting) (m : Method) : List Parameter :=
  (m.results s.package).filter (isComponent s)

/-! ### Single results -/

/-- The result has a name of a role other than the error, and a type that the role admits. -/
def HasRole (s : Setting) (r : Parameter) : Prop :=
  ∃ role : OutputRole, role ≠ .err ∧ r.name = role.text ∧ role.accepts s r.type

/-- A result has the role of its name if the role admits its type. -/
private theorem judgeName_eq_ok_iff {r : Parameter} {role : OutputRole} :
    judgeName s m r = .ok role ↔ r.name = role.text ∧ role.accepts s r.type := by
  rw [judgeName]
  cases hname : OutputRole.ofName? r.name with
  | none =>
    refine iff_of_false (by simp) fun h => ?_
    rw [h.1, OutputRole.ofName?_text] at hname
    cases hname
  | some named =>
    obtain rfl | hne := eq_or_ne named role
    · have htext := OutputRole.ofName?_eq_some_iff.mp hname
      by_cases haccepts : named.accepts s r.type <;> simp [haccepts, htext]
    · refine iff_of_false (fun h => ?_) fun h => ?_
      · by_cases haccepts : named.accepts s r.type <;> simp [haccepts, hne] at h
      · rw [h.1, OutputRole.ofName?_text] at hname
        exact hne (Option.some_inj.mp hname).symm

/-- The first component is the body, and the second one the head. -/
private theorem componentError?_eq_none_iff {before : List Parameter} {r : Parameter} :
    componentError? s m before r = none ↔
      ((before.filter (isComponent s)).length = 0 → r.name = "body") ∧
        ((before.filter (isComponent s)).length = 1 → r.name = "head") := by
  rw [componentError?]
  rcases (before.filter (isComponent s)).length with _ | _ | n <;> simp

/-- A result gets the role of its name if it is no error, and if it is not a component of a GET that
should have another name. -/
theorem judge_eq_ok_iff {before : List Parameter} {r : Parameter} {role : OutputRole}
    (herror : r.type.isError = false) :
    judge s m method before r = .ok role ↔
      (method = .get → isComponent s r → componentError? s m before r = none) ∧
        r.name = role.text ∧ role.accepts s r.type := by
  rw [judge, if_neg (by simp [herror]), ← judgeName_eq_ok_iff (m := m)]
  split
  · next hcomponent =>
    simp only [Bool.and_eq_true, decide_eq_true_eq] at hcomponent
    cases hfound : componentError? s m before r <;> simp [hcomponent]
  · next hcomponent =>
    simp only [Bool.and_eq_true, decide_eq_true_eq, not_and] at hcomponent
    simp only [iff_and_self]
    exact fun _ hget hr => absurd hr (hcomponent hget)

private theorem ne_err_of_accepts {role : OutputRole} {type : HostType}
    (herror : type.isError = false) (h : role.accepts s type) : role ≠ .err := by
  rintro rfl
  rw [OutputRole.accepts, herror] at h
  cases h

/-- **Nothing is found about a result** that is the first error, or that is not an error and has its
role. -/
theorem resultFindings_eq_nil_iff {before : List Parameter} {r : Parameter} :
    resultFindings s m method before r = [] ↔
      (r.type.isError → (before.filter fun q => q.type.isError).length ≠ 1) ∧
        (r.type.isError = false →
          (method = .get → isComponent s r → componentError? s m before r = none) ∧
            HasRole s r) := by
  -- a second error is a finding, and so is a value without a role; nothing else is
  cases herror : r.type.isError with
  | true =>
    have hjudge : judge s m method before r = .ok .err := by rw [judge, if_pos herror]
    simp [resultFindings, hjudge]
  | false =>
    simp only [Bool.false_eq_true, false_implies, true_and, forall_const]
    have hjudge {role : OutputRole} : judge s m method before r = .ok role ↔
        (method = .get → isComponent s r → componentError? s m before r = none) ∧
          r.name = role.text ∧ role.accepts s r.type := judge_eq_ok_iff herror
    cases hok : judge s m method before r with
    | error e =>
      refine iff_of_false (by simp [resultFindings, hok]) ?_
      rintro ⟨hcomponent, role, -, hrole⟩
      rw [hjudge.mpr ⟨hcomponent, hrole⟩] at hok
      cases hok
    | ok role =>
      obtain ⟨hcomponent, hname, haccepts⟩ := hjudge.mp hok
      have hne := ne_err_of_accepts herror haccepts
      refine iff_of_true ?_ ⟨hcomponent, role, hne, hname, haccepts⟩
      cases role with
      | err => exact absurd rfl hne
      | _ => simp [resultFindings, hok]

/-! ### Every result -/

/-- Nothing is found about single results iff there is not more than one error, each other result
has its role, and the first two components of a GET are its body and its head. -/
theorem forall_resultFindings_iff :
    (withEarlier (resultFindings s m method) [] (m.results s.package)).flatten = [] ↔
      ((m.results s.package).filter fun r => r.type.isError).length ≤ 1 ∧
        (∀ r ∈ m.results s.package, r.type.isError = false → HasRole s r) ∧
        (method = .get → (∀ r ∈ (components s m)[0]?, r.name = "body") ∧
          ∀ r ∈ (components s m)[1]?, r.name = "head") := by
  -- what is found about a result depends on the ones before it, so every split of the results is
  -- looked at
  have hsplits : (withEarlier (resultFindings s m method) [] (m.results s.package)).flatten = [] ↔
      ∀ earlier r later, m.results s.package = earlier ++ r :: later →
        resultFindings s m method earlier r = [] := by
    simp only [List.flatten_eq_nil_iff, mem_withEarlier_iff, List.nil_append]
    exact ⟨fun h earlier r later hr => h _ ⟨earlier, r, later, hr, rfl⟩,
      fun h found ⟨earlier, r, later, hr, hfound⟩ => hfound ▸ h earlier r later hr⟩
  simp only [hsplits, resultFindings_eq_nil_iff, length_filter_le_iff, components, Option.mem_def,
    getElem?_filter_eq_some_iff, componentError?_eq_none_iff]
  constructor
  · intro h
    refine ⟨fun earlier r later hr => (h earlier r later hr).1, fun r hr herror => ?_,
      fun hget => ⟨?_, ?_⟩⟩
    · obtain ⟨earlier, later, hsplit⟩ := List.append_of_mem hr
      exact ((h earlier r later hsplit).2 herror).2
    · rintro r ⟨earlier, later, hr, hcomponent, hcount⟩
      have hrole := (h earlier r later hr).2 (isError_of_isComponent hcomponent)
      exact (hrole.1 hget hcomponent).1 hcount
    · rintro r ⟨earlier, later, hr, hcomponent, hcount⟩
      have hrole := (h earlier r later hr).2 (isError_of_isComponent hcomponent)
      exact (hrole.1 hget hcomponent).2 hcount
  · rintro ⟨herrors, hroles, hcomponents⟩ earlier r later hr
    refine ⟨herrors earlier r later hr, fun herror => ⟨fun hget hcomponent => ?_, ?_⟩⟩
    · exact ⟨fun hcount => (hcomponents hget).1 r ⟨earlier, later, hr, hcomponent, hcount⟩,
        fun hcount => (hcomponents hget).2 r ⟨earlier, later, hr, hcomponent, hcount⟩⟩
    · exact hroles r (hr ▸ List.mem_append_right _ List.mem_cons_self) herror

/-! ### Outputs -/

/-- A result has the role that it is judged to have after those before it. -/
private theorem mem_filled_iff {role : OutputRole} {r : Parameter} :
    (role, r) ∈ filled s m method ↔
      ∃ earlier later, m.results s.package = earlier ++ r :: later ∧
        judge s m method earlier r = .ok role := by
  have hfilled {earlier : List Parameter} {q : Parameter} :
      filled? s m method earlier q = some (role, r) ↔
        q = r ∧ judge s m method earlier q = .ok role := by
    cases hjudge : judge s m method earlier q <;> simp [filled?, hjudge, and_comm]
  simp only [filled, List.mem_filterMap, mem_withEarlier_iff, List.nil_append, id_eq]
  constructor
  · rintro ⟨entry, ⟨earlier, q, later, hr, rfl⟩, hentry⟩
    obtain ⟨rfl, hrole⟩ := hfilled.mp hentry
    exact ⟨earlier, later, hr, hrole⟩
  · rintro ⟨earlier, later, hr, hrole⟩
    exact ⟨_, ⟨earlier, r, later, hr, rfl⟩, hfilled.mpr ⟨rfl, hrole⟩⟩

/-- The last result with a role has the slot. -/
theorem slot?_read {role : OutputRole} (hrole : role ≠ .err) :
    (read s m method).slot? role =
      ((filled s m method).reverse.lookup role).map Parameter.slot := by
  cases role with
  | err => exact absurd rfl hrole
  | _ => rfl

/-- An output that is there has been returned by its name. -/
theorem returns_of_isSome_slot? {role : OutputRole} (hrole : role ≠ .err)
    (h : ((read s m method).slot? role).isSome) : m.Returns s.package role := by
  rw [slot?_read hrole, Option.isSome_map, List.lookup_isSome_iff] at h
  obtain ⟨⟨named, r⟩, hmem, hnamed⟩ := h
  obtain rfl := eq_of_beq hnamed
  obtain ⟨earlier, later, hr, hjudge⟩ := mem_filled_iff.mp (List.mem_reverse.mp hmem)
  have hmem : r ∈ m.results s.package := hr ▸ List.mem_append_right _ List.mem_cons_self
  cases herror : r.type.isError with
  | true =>
    rw [judge, if_pos herror] at hjudge
    cases hjudge
    exact absurd rfl hrole
  | false => exact ⟨r, hmem, herror, ((judge_eq_ok_iff herror).mp hjudge).2.1⟩

/-- If nothing is found about single results, the outputs that are there are those whose names are
returned. -/
theorem isSome_slot?_read
    (h : (withEarlier (resultFindings s m method) [] (m.results s.package)).flatten = [])
    {role : OutputRole} (hrole : role ≠ .err) :
    ((read s m method).slot? role).isSome ↔ m.Returns s.package role := by
  refine ⟨returns_of_isSome_slot? hrole, ?_⟩
  rintro ⟨r, hr, herror, hname⟩
  obtain ⟨earlier, later, hsplit⟩ := List.append_of_mem hr
  have hfound : resultFindings s m method earlier r = [] :=
    List.flatten_eq_nil_iff.mp h _ (mem_withEarlier_iff.mpr ⟨earlier, r, later, hsplit, rfl⟩)
  obtain ⟨hcomponent, named, -, hnamed, haccepts⟩ :=
    (resultFindings_eq_nil_iff.mp hfound).2 herror
  obtain rfl := OutputRole.text_inj.mp (hname.symm.trans hnamed)
  have hjudge := (judge_eq_ok_iff (m := m) herror).mpr ⟨hcomponent, hname, haccepts⟩
  rw [slot?_read hrole, Option.isSome_map, List.lookup_isSome_iff]
  exact ⟨(role, r), List.mem_reverse.mpr (mem_filled_iff.mpr ⟨earlier, later, hsplit, hjudge⟩),
    beq_self_eq_true role⟩

/-- The error is the first result that is one, whatever is found about the results. -/
theorem err_read : (read s m method).err =
    ((m.results s.package).find? fun r => r.type.isError).map Parameter.slot := by
  -- of every result it is known whether it gets the role, without those before it
  have hlookup (before items : List Parameter) :
      ((withEarlier (filled? s m method) before items).filterMap id).lookup .err =
        items.find? fun r => r.type.isError := by
    induction items generalizing before with
    | nil => rfl
    | cons r items ih =>
      rw [withEarlier, List.filterMap_cons]
      cases herror : r.type.isError with
      | true =>
        have hjudge : judge s m method before r = .ok .err := by rw [judge, if_pos herror]
        simp [filled?, hjudge, herror]
      | false =>
        rw [List.find?_cons_of_neg (by simp [herror]), ← ih (before ++ [r])]
        cases hjudge : judge s m method before r with
        | error e => simp [filled?, hjudge]
        | ok role =>
          have hne := ne_err_of_accepts herror ((judge_eq_ok_iff herror).mp hjudge).2.2
          simp [filled?, hjudge, List.lookup_cons, beq_false_of_ne hne.symm]
  exact congrArg (Option.map Parameter.slot) (hlookup [] _)

/-! ### All results together -/

private theorem noteOutput_eq_nil_iff {e : String → AnalysisError} {role : OutputRole}
    {slot : Option Slot} : noteOutput m e role slot = [] ↔ ¬ slot.isSome := by
  rw [noteOutput]
  split <;> simp_all

/-- For a GET whose first component is its body, a result can be meant as the body iff one has its
name. -/
theorem any_isBodyAttempt_iff (hbody : ∀ r ∈ (components s m)[0]?, r.name = "body") :
    (m.results s.package).any (isBodyAttempt s) ↔ m.Returns s.package .body := by
  simp only [List.any_eq_true, isBodyAttempt, Bool.and_eq_true, Bool.not_eq_true', Bool.or_eq_true,
    beq_iff_eq]
  constructor
  · rintro ⟨r, hr, herror, hcomponent | hname⟩
    · have hmem : r ∈ components s m := List.mem_filter.mpr ⟨hr, hcomponent⟩
      have hfirst := List.getElem?_eq_getElem (List.length_pos_of_mem hmem)
      obtain ⟨hq, hqcomponent⟩ := List.mem_filter.mp (List.mem_of_getElem? hfirst)
      exact ⟨_, hq, isError_of_isComponent hqcomponent, hbody _ hfirst⟩
    · exact ⟨r, hr, herror, hname⟩
  · rintro ⟨r, hr, herror, hname⟩
    exact ⟨r, hr, herror, .inr hname⟩

/-- If nothing is found about single results, what is found about all of them together depends on
the names that are returned. -/
theorem jointFindings_eq_nil_iff
    (h : (withEarlier (resultFindings s m method) [] (m.results s.package)).flatten = []) :
    jointFindings s m method sse = [] ↔
      (method = .get → m.Returns s.package .body) ∧
        (m.Returns s.package .redirectStatus → m.Returns s.package .redirect) ∧
        (sse.isSome → ¬ m.Returns s.package .newSession ∧ ¬ m.Returns s.package .closeSession) ∧
        (method ≠ .get → ¬ m.Returns s.package .enableBackgroundStreaming ∧
          ¬ m.Returns s.package .disableRefreshAfterHidden) := by
  have hslot (role : OutputRole) (hrole : role ≠ .err) := isSome_slot?_read h hrole
  have hattempt (hget : method = .get) :=
    any_isBodyAttempt_iff ((forall_resultFindings_iff.mp h).2.2 hget).1
  rw [← hslot .redirectStatus nofun, ← hslot .redirect nofun, ← hslot .newSession nofun,
    ← hslot .closeSession nofun, ← hslot .enableBackgroundStreaming nofun,
    ← hslot .disableRefreshAfterHidden nofun]
  simp only [jointFindings, List.append_eq_nil_iff, slot?, and_assoc]
  refine and_congr ?_ (and_congr ?_ (and_congr ?_ ?_))
  · by_cases hget : method = .get
    · rw [← hattempt hget]
      simp [hget]
    · simp [hget]
  · cases (read s m method).redirect <;> simp
  · split <;> simp_all [noteOutput_eq_nil_iff]
  · split <;> simp_all [noteOutput_eq_nil_iff]

/-! ### Main result -/

/-- The results of a handler, with or without an SSE parameter, keep to the rules. -/
structure AreInOrder (s : Setting) (m : Method) (method : HttpMethod) (sse : Option Slot) :
    Prop where
  errors : ((m.results s.package).filter fun r => r.type.isError).length ≤ 1
  roles : ∀ r ∈ m.results s.package, r.type.isError = false → HasRole s r
  redirect : m.Returns s.package .redirectStatus → m.Returns s.package .redirect
  session : sse.isSome → ¬ m.Returns s.package .newSession ∧ ¬ m.Returns s.package .closeSession
  getOnly : method ≠ .get → ¬ m.Returns s.package .enableBackgroundStreaming ∧
    ¬ m.Returns s.package .disableRefreshAfterHidden
  body : method = .get → m.Returns s.package .body
  components : method = .get → (∀ r ∈ (components s m)[0]?, r.name = "body") ∧
    ∀ r ∈ (components s m)[1]?, r.name = "head"

/-- **Nothing is found about the results of a handler exactly if they are in order.** Then the error
is the result that is one, and any other output is there exactly if a result has its name. -/
theorem findings_eq_nil_iff (s : Setting) (m : Method) (method : HttpMethod) (sse : Option Slot) :
    (findings s m method sse = [] ↔ AreInOrder s m method sse) ∧
      (findings s m method sse = [] →
        (read s m method).err =
            ((m.results s.package).find? fun r => r.type.isError).map Parameter.slot ∧
          ∀ role ≠ .err,
            ((read s m method).slot? role).isSome ↔ m.Returns s.package role) := by
  rw [findings, List.append_eq_nil_iff]
  refine ⟨?_, fun h => ⟨err_read, fun role hrole => isSome_slot?_read h.1 hrole⟩⟩
  constructor
  · rintro ⟨hresults, hjoint⟩
    obtain ⟨herrors, hroles, hcomponents⟩ := forall_resultFindings_iff.mp hresults
    obtain ⟨hbody, hredirect, hsession, hgetOnly⟩ := (jointFindings_eq_nil_iff hresults).mp hjoint
    exact ⟨herrors, hroles, hredirect, hsession, hgetOnly, hbody, hcomponents⟩
  · intro h
    have hresults := forall_resultFindings_iff.mpr ⟨h.errors, h.roles, h.components⟩
    exact ⟨hresults,
      (jointFindings_eq_nil_iff hresults).mpr ⟨h.body, h.redirect, h.session, h.getOnly⟩⟩

end HandlerOutputs

end GoPages
