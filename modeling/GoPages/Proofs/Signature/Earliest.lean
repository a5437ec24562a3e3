import GoPages.Signature.Inputs
import Mathlib.Data.List.Perm.Subperm
import Mathlib.Data.List.Sort

/-!
# The earliest roles

The parameters of a handler after the request have roles in a fixed order. Giving each parameter the
earliest role that is left is as good as any other way to give them roles.

* `Setting.Fits` says that parameters can have certain roles one by one, each a later one than those
  before it.
* `Setting.earliest_assign`: wherever some first parameters fit roles, `Setting.assign` has given
  them roles, and none is later. So it takes the longest part of the parameters that fits any roles,
  and it gives this part the earliest roles that it fits (`Setting.isEarliest_assign`).
* `HandlerInputs.reads_earliest`: the slots of a handler are those of the request and of the
  earliest roles, and each parameter after them is unknown.
-/

namespace GoPages

/-! ### The order of roles -/

/-- The place of a role among the parameters of a handler. -/
def InputRole.rank : InputRole → ℕ
  | request => 0
  | sse => 1
  | sessionToken => 2
  | session => 3
  | struct .path => 4
  | struct .query => 5
  | struct .signals => 6
  | dispatch => 7

namespace HandlerInputs

/-- The roles stand in the order of their ranks. -/
private theorem pairwise_rank_roles :
    (InputRole.request :: roles).Pairwise fun a b => a.rank < b.rank := by decide

/-- The roles after the request are those of a greater rank. -/
private theorem mem_roles_iff {role : InputRole} :
    role ∈ roles ↔ InputRole.request.rank < role.rank := by
  rcases role with _ | _ | _ | _ | (_ | _ | _) | _ <;> decide

/-- Roles of increasing rank after the request are some of the roles in their order. -/
theorem sublist_roles_iff {chosen : List InputRole} :
    chosen.Sublist roles ↔
      (InputRole.request :: chosen).Pairwise fun a b => a.rank < b.rank := by
  constructor
  · intro h
    exact pairwise_rank_roles.sublist (h.cons_cons _)
  · intro h
    obtain ⟨hrequest, hchosen⟩ := List.pairwise_cons.mp h
    have hnodup : chosen.Nodup := hchosen.imp fun hlt heq => (heq ▸ hlt).false
    have hsubset : chosen ⊆ roles := fun role hrole => mem_roles_iff.mpr (hrequest role hrole)
    have : Std.Antisymm fun a b : InputRole => a.rank < b.rank :=
      ⟨fun _ _ hab hba => absurd hba hab.asymm⟩
    exact List.sublist_of_subperm_of_pairwise (List.subperm_of_subset hnodup hsubset) hchosen
      (List.pairwise_cons.mp pairwise_rank_roles).2

end HandlerInputs

/-! ### Parameters that fit roles -/

namespace Setting

variable {s : Setting}

/-- The parameters can have the roles `chosen` one by one, and each of the roles is later than those
before it and than the request. -/
structure Fits (s : Setting) (chosen : List InputRole) (params : List Parameter) : Prop where
  increasing : (InputRole.request :: chosen).Pairwise fun a b => a.rank < b.rank
  recognized : List.Forall₂ (fun role p => s.recognizes role p) chosen params

/-- No other way to give roles to the first parameters reaches further, or gives an earlier role to
one of them. -/
theorem earliest_assign {roles chosen : List InputRole} {taken rest : List Parameter}
    (hroles : roles.Pairwise fun a b => a.rank < b.rank) (hsub : chosen.Sublist roles)
    (hrec : List.Forall₂ (fun role p => s.recognizes role p) chosen taken) :
    List.Forall₂ (fun a b => a.rank ≤ b.rank)
      (((s.assign roles (taken ++ rest)).assigned.map Prod.fst).take chosen.length) chosen := by
  generalize hparams : taken ++ rest = params
  fun_induction assign s roles params generalizing chosen taken with
  | case1 roles =>
    obtain ⟨rfl, -⟩ := List.append_eq_nil_iff.mp hparams
    cases hrec
    exact .nil
  | case2 p params =>
    obtain rfl := List.sublist_nil.mp hsub
    exact .nil
  | case3 role roles p params hrecognized ih =>
    obtain ⟨hlater, hafter⟩ := List.pairwise_cons.mp hroles
    cases hrec with
    | nil => exact .nil
    | @cons first q others taken hfirst hothers =>
      obtain ⟨rfl, htail⟩ := List.cons.inj hparams
      -- the first role is the one that is given, or a later one
      rcases List.cons_sublist_cons'.mp hsub with hall | ⟨rfl, hrest⟩
      · have hle : role.rank ≤ first.rank := (hlater first (hall.subset List.mem_cons_self)).le
        exact .cons hle (ih hafter (List.sublist_of_cons_sublist hall) hothers htail)
      · exact .cons le_rfl (ih hafter hrest hothers htail)
  | case4 role roles p params hnot ih =>
    obtain ⟨-, hafter⟩ := List.pairwise_cons.mp hroles
    cases hrec with
    | nil => exact .nil
    | @cons first q others taken hfirst hothers =>
      obtain ⟨rfl, -⟩ := List.cons.inj hparams
      have hne : first ≠ role := by
        rintro rfl
        exact hnot hfirst
      have hsub : (first :: others).Sublist roles :=
        (List.cons_sublist_cons'.mp hsub).resolve_right fun h => hne h.1
      exact ih hafter hsub (.cons hfirst hothers) hparams

/-- Among the parameters after a request, `taken` is the longest part from the beginning that fits
any roles, and `chosen` are the earliest roles that it fits. -/
structure IsEarliest (s : Setting) (params : List Parameter) (chosen : List InputRole)
    (taken rest : List Parameter) : Prop where
  append : taken ++ rest = params
  fits : s.Fits chosen taken
  longest : ∀ other taken' rest', taken' ++ rest' = params → s.Fits other taken' →
    taken'.length ≤ taken.length
  earliest : ∀ other, s.Fits other taken → List.Forall₂ (fun a b => a.rank ≤ b.rank) chosen other

/-- The roles that are given out fit. -/
private theorem fits_assign (s : Setting) (params : List Parameter) :
    s.Fits ((s.assign HandlerInputs.roles params).assigned.map Prod.fst)
      ((s.assign HandlerInputs.roles params).assigned.map Prod.snd) where
  increasing := HandlerInputs.sublist_roles_iff.mp (s.roles_assign_sublist _ params)
  recognized := by
    rw [List.forall₂_map_left_iff, List.forall₂_map_right_iff, List.forall₂_same]
    exact fun _ h => recognizes_of_mem_assigned h

/-- **The earliest roles are the best ones.** -/
theorem isEarliest_assign (s : Setting) (params : List Parameter) :
    s.IsEarliest params ((s.assign HandlerInputs.roles params).assigned.map Prod.fst)
      ((s.assign HandlerInputs.roles params).assigned.map Prod.snd)
      (s.assign HandlerInputs.roles params).rest := by
  have hroles := (List.pairwise_cons.mp HandlerInputs.pairwise_rank_roles).2
  -- any other choice of roles for a beginning of the parameters has each role at the same rank or
  -- later
  have hbest {other : List InputRole} {taken rest : List Parameter}
      (happend : taken ++ rest = params) (hfits : s.Fits other taken) :
      List.Forall₂ (fun a b => a.rank ≤ b.rank)
        (((s.assign HandlerInputs.roles params).assigned.map Prod.fst).take other.length)
        other := by
    rw [← happend]
    exact earliest_assign hroles (HandlerInputs.sublist_roles_iff.mpr hfits.increasing)
      hfits.recognized
  refine ⟨s.params_assign_append_rest _ params, s.fits_assign params, ?_, ?_⟩
  · intro other taken rest happend hfits
    have hlength := (hbest happend hfits).length_eq
    rw [List.length_take, List.length_map] at hlength
    rw [List.length_map, ← hfits.recognized.length_eq]
    omega
  · intro other hfits
    have hlength := hfits.recognized.length_eq
    have hall := hbest (s.params_assign_append_rest _ params) hfits
    rwa [hlength, List.length_map, ← List.length_map Prod.fst, List.take_length] at hall

/-- All parameters have roles exactly if they fit any. -/
theorem rest_assign_eq_nil_iff {params : List Parameter} :
    (s.assign HandlerInputs.roles params).rest = [] ↔ ∃ chosen, s.Fits chosen params := by
  have hearliest := s.isEarliest_assign params
  constructor
  · intro hrest
    have hfits := hearliest.fits
    rw [← hearliest.append, hrest, List.append_nil]
    exact ⟨_, hfits⟩
  · rintro ⟨chosen, hfits⟩
    have hlength := congrArg List.length hearliest.append
    have hlongest := hearliest.longest chosen params [] (List.append_nil _) hfits
    rw [List.length_append] at hlength
    exact List.length_eq_zero_iff.mp (by omega)

end Setting

/-! ### Findings -/

namespace AnalysisError

/-- Is the request missing? -/
def isMissingRequest : AnalysisError → Bool
  | missingRequest .. => true
  | _ => false

/-- Has a parameter no role? -/
def isUnknownInput : AnalysisError → Bool
  | unknownInput .. => true
  | _ => false

/-- Does a parameter not fit, or is the request missing? -/
def isMisplaced (e : AnalysisError) : Bool := e.isMissingRequest || e.isUnknownInput

end AnalysisError

/-- A structured parameter with a fault is still in its place. -/
private theorem StructInput.isMisplaced_of_error? {k : StructInput} {p : Package} {m : Method}
    {param : Parameter} {e : AnalysisError} (he : k.error? p m param = some e) :
    e.isMisplaced = false := by
  rcases error?_cases he with rfl | ⟨f, hf⟩
  · rfl
  · rcases fieldError?_cases hf with rfl | rfl | rfl <;> rfl

/-- So is a dispatch function with a fault. -/
private theorem Dispatch.isMisplaced_of_error? {m : Method} {type : HostType} {e : AnalysisError}
    (he : error? m type = some e) : e.isMisplaced = false := by
  rcases error?_cases he with rfl | rfl | rfl | rfl <;> rfl

/-- What is found about a parameter in its role is not that it has none. -/
theorem Setting.isMisplaced_of_mem_roleFindings {s : Setting} {m : Method} {role : InputRole}
    {p : Parameter} {f : Finding} (hf : f ∈ s.roleFindings m role p) : f.2.isMisplaced = false := by
  cases role with
  | request => cases hf
  | sse => cases hf
  | sessionToken =>
    obtain ⟨-, hf⟩ := List.mem_ite_nil_left.mp hf
    rw [List.mem_singleton.mp hf]
    rfl
  | session =>
    obtain ⟨-, hf⟩ := List.mem_ite_nil_left.mp hf
    rw [List.mem_singleton.mp hf]
    rfl
  | struct k =>
    obtain ⟨e, he, rfl⟩ := List.mem_map.mp hf
    exact StructInput.isMisplaced_of_error? (Option.mem_toList.mp he)
  | dispatch =>
    obtain ⟨e, he, rfl⟩ := List.mem_map.mp hf
    exact Dispatch.isMisplaced_of_error? (Option.mem_toList.mp he)

/-! ### Handlers -/

namespace HandlerInputs

variable {s : Setting} {m : Method}

/-- The slot of a role. -/
def slot? (i : HandlerInputs) : InputRole → Option Slot
  | .request => i.request
  | .sse => i.sse
  | .sessionToken => i.sessionToken
  | .session => i.session
  | .struct .path => i.path
  | .struct .query => i.query
  | .struct .signals => i.signals
  | .dispatch => i.dispatch

private theorem slot?_ofAssignment (a : Assignment) (role : InputRole) :
    (ofAssignment a).slot? role = a.slot? role := by
  rcases role with _ | _ | _ | _ | (_ | _ | _) | _ <;> rfl

/-- There are roles exactly if the first parameter is a request. -/
theorem assign?_eq_none_iff {params : List Parameter} :
    assign? s params = none ↔
      ∀ p ∈ params.head?, s.conventions.requestType.accepts p.type = false := by
  cases params with
  | nil => simp [assign?]
  | cons p params =>
    cases haccepts : s.conventions.requestType.accepts p.type <;>
      simp [assign?, Setting.recognizes, haccepts]

/-- Roles are given out after the request, which comes first. -/
private theorem assign?_eq_some_iff {params : List Parameter} {a : Assignment} :
    assign? s params = some a ↔ ∃ request others, params = request :: others ∧
      s.conventions.requestType.accepts request.type = true ∧
      a = (s.assign roles others).cons .request request := by
  cases params with
  | nil => simp [assign?]
  | cons p params =>
    rw [assign?, Option.ite_none_right_eq_some, Option.some.injEq]
    constructor
    · rintro ⟨hrequest, rfl⟩
      exact ⟨p, params, rfl, hrequest, rfl⟩
    · rintro ⟨request, others, heq, hrequest, rfl⟩
      cases heq
      exact ⟨hrequest, rfl⟩

/-- The slots are those of the parameters that have roles. -/
theorem slot?_read {a : Assignment} (ha : assign? s (m.params s.package) = some a)
    (role : InputRole) : (read s m).slot? role = (a.assigned.lookup role).map Parameter.slot := by
  rw [read, ha, slot?_ofAssignment]
  rfl

end HandlerInputs

namespace Assignment

variable {s : Setting} {m : Method} {a : Assignment}

@[simp] theorem rest_cons (role : InputRole) (p : Parameter) (a : Assignment) :
    (a.cons role p).rest = a.rest := rfl

private theorem isMissingRequest_of_mem_findings {f : Finding} (hf : f ∈ a.findings s m) :
    f.2.isMissingRequest = false := by
  rcases List.mem_append.mp hf with hf | hf
  · obtain ⟨⟨role, p⟩, -, hf⟩ := List.mem_flatMap.mp hf
    exact (Bool.or_eq_false_iff.mp (Setting.isMisplaced_of_mem_roleFindings hf)).1
  · obtain ⟨p, -, rfl⟩ := List.mem_map.mp hf
    rfl

/-- The parameters that are found to have no role are those without one. -/
theorem filter_isUnknownInput_findings :
    ((a.findings s m).filter fun f => f.2.isUnknownInput) = a.rest.map (unknown m) := by
  rw [findings, List.filter_append, List.filter_eq_nil_iff.mpr, List.nil_append,
    List.filter_eq_self]
  · exact List.forall_mem_map.mpr fun _ _ => rfl
  · intro f hf
    obtain ⟨⟨role, p⟩, -, hf⟩ := List.mem_flatMap.mp hf
    have hfalse := (Bool.or_eq_false_iff.mp (Setting.isMisplaced_of_mem_roleFindings hf)).2
    exact Bool.eq_false_iff.mp hfalse

/-- No parameter is found to have no role exactly if each has one. -/
theorem forall_mem_findings_iff :
    (∀ f ∈ a.findings s m, f.2.isMissingRequest = false ∧ f.2.isUnknownInput = false) ↔
      a.rest = [] := by
  rw [← List.map_eq_nil_iff (f := unknown m), ← filter_isUnknownInput_findings (s := s),
    List.filter_eq_nil_iff]
  refine forall₂_congr fun f hf => ?_
  rw [isMissingRequest_of_mem_findings hf, Bool.not_eq_true]
  exact and_iff_right rfl

end Assignment

namespace HandlerInputs

/-- What becomes of parameters that start with a request: the earliest roles of the longest part
that fits any are filled, and every other parameter is unknown, in its order and at its place. -/
structure ReadsEarliest (s : Setting) (m : Method) (request : Parameter) (chosen : List InputRole)
    (taken rest : List Parameter) : Prop where
  slots : ∀ role, (read s m).slot? role =
    (((.request, request) :: chosen.zip taken).lookup role).map Parameter.slot
  request : ∀ f ∈ findings s m, f.2.isMissingRequest = false
  unknown : ((findings s m).filter fun f => f.2.isUnknownInput) =
    rest.map fun p => (p.location, .unknownInput m.receiver m.name p.label)

/-- The parameters after the request are read in the earliest roles. -/
private theorem readsEarliest {s : Setting} {m : Method} {request : Parameter}
    {others : List Parameter} (hparams : m.params s.package = request :: others)
    (hrequest : s.conventions.requestType.accepts request.type = true) :
    ReadsEarliest s m request ((s.assign roles others).assigned.map Prod.fst)
      ((s.assign roles others).assigned.map Prod.snd) (s.assign roles others).rest := by
  have ha := assign?_eq_some_iff.mpr ⟨request, others, hparams, hrequest, rfl⟩
  have hfindings : findings s m =
      ((s.assign roles others).cons .request request).findings s m := by rw [findings, ha]
  refine ⟨fun role => ?_, fun f hf => ?_, ?_⟩
  · rw [slot?_read ha, ← List.zip_of_prod rfl rfl]
    rfl
  · rw [hfindings] at hf
    exact Assignment.isMissingRequest_of_mem_findings hf
  · rw [hfindings, Assignment.filter_isUnknownInput_findings]
    rfl

/-- **The parameters of a handler have the earliest roles.** Without a request nothing else is read
or found. After a request the longest part of the parameters that fits any roles is taken, with the
earliest roles that it fits, and nothing else has a slot; every parameter after it is unknown. So
nothing is missing or unknown exactly if a request is followed by parameters that fit roles. -/
theorem reads_earliest (s : Setting) (m : Method) :
    ((∀ p ∈ (m.params s.package).head?, s.conventions.requestType.accepts p.type = false) ∧
        read s m = empty ∧ findings s m = [m.finding (.missingRequest m.receiver m.name)] ∨
      ∃ request others chosen taken rest, m.params s.package = request :: others ∧
        s.conventions.requestType.accepts request.type = true ∧
        s.IsEarliest others chosen taken rest ∧ ReadsEarliest s m request chosen taken rest) ∧
    ((∀ f ∈ findings s m, f.2.isMissingRequest = false ∧ f.2.isUnknownInput = false) ↔
      ∃ request others chosen, m.params s.package = request :: others ∧
        s.conventions.requestType.accepts request.type = true ∧ s.Fits chosen others) := by
  cases ha : assign? s (m.params s.package) with
  | none =>
    have hnone := assign?_eq_none_iff.mp ha
    have hfindings : findings s m = [m.finding (.missingRequest m.receiver m.name)] := by
      rw [findings, ha]
    refine ⟨.inl ⟨hnone, by rw [read, ha], hfindings⟩, ?_⟩
    rw [hfindings, List.forall_mem_singleton]
    constructor
    · rintro ⟨hmissing, -⟩
      cases hmissing
    · rintro ⟨request, others, chosen, hparams, hrequest, -⟩
      simp [hparams, hrequest] at hnone
  | some a =>
    obtain ⟨request, others, hparams, hrequest, rfl⟩ := assign?_eq_some_iff.mp ha
    refine ⟨.inr ⟨request, others, _, _, _, hparams, hrequest, s.isEarliest_assign others,
      readsEarliest hparams hrequest⟩, ?_⟩
    have hfindings : findings s m =
      ((s.assign roles others).cons .request request).findings s m := by rw [findings, ha]
    rw [hfindings, Assignment.forall_mem_findings_iff, Assignment.rest_cons,
      Setting.rest_assign_eq_nil_iff]
    constructor
    · rintro ⟨chosen, hfits⟩
      exact ⟨request, others, chosen, hparams, hrequest, hfits⟩
    · rintro ⟨request', others', chosen, heq, -, hfits⟩
      obtain ⟨-, rfl⟩ := List.cons.inj (hparams.symm.trans heq)
      exact ⟨chosen, hfits⟩

end HandlerInputs

end GoPages
