import GoPages.Signature.Handler
import Mathlib.Data.List.Basic

/-!
# The body of a GET

A GET without findings has a body. A result can be meant as the body by its type or by its name, and
a result with only one of the two is a finding (`isSome_body_of_findings`).
-/

namespace GoPages.HandlerOutputs

variable {s : Setting} {m : Method}

/-- What is said about an item after the items before it. -/
theorem mem_withEarlier {α β : Type} (f : List α → α → β) (before earlier later : List α) (a : α) :
    f (before ++ earlier) a ∈ withEarlier f before (earlier ++ a :: later) := by
  induction earlier generalizing before with
  | nil => simp [withEarlier]
  | cons b earlier ih =>
    have := ih (before ++ [b])
    rw [List.append_assoc, List.singleton_append] at this
    exact List.mem_cons_of_mem _ this

/-- What is said about the items is what is said about each after those before it. -/
theorem mem_withEarlier_iff {α β : Type} {f : List α → α → β} {before items : List α} {b : β} :
    b ∈ withEarlier f before items ↔
      ∃ earlier a later, items = earlier ++ a :: later ∧ b = f (before ++ earlier) a := by
  constructor
  · intro h
    induction items generalizing before with
    | nil => cases h
    | cons a items ih =>
      rcases List.mem_cons.mp h with rfl | h
      · exact ⟨[], a, items, rfl, by rw [List.append_nil]⟩
      · obtain ⟨earlier, c, later, rfl, rfl⟩ := ih h
        exact ⟨a :: earlier, c, later, rfl, by rw [List.append_assoc, List.singleton_append]⟩
  · rintro ⟨earlier, a, later, rfl, rfl⟩
    exact mem_withEarlier f before earlier later a

/-- In a method without findings each result has its role. -/
theorem exists_judge_eq_ok {method : HttpMethod} {sse : Option Slot}
    (h : findings s m method sse = []) {earlier later : List Parameter} {r : Parameter}
    (hr : m.results s.package = earlier ++ r :: later) :
    ∃ role, judge s m method earlier r = .ok role ∧ (role, r) ∈ filled s m method := by
  have hnone : resultFindings s m method earlier r = [] := by
    refine List.flatten_eq_nil_iff.mp (List.append_eq_nil_iff.mp h).1 _ ?_
    rw [hr]
    exact mem_withEarlier _ [] earlier later r
  cases hjudge : judge s m method earlier r with
  | error e => simp [resultFindings, hjudge] at hnone
  | ok role =>
    refine ⟨role, rfl, List.mem_filterMap.mpr ⟨filled? s m method earlier r, ?_, ?_⟩⟩
    · rw [hr]
      exact mem_withEarlier _ [] earlier later r
    · simp [filled?, hjudge]

/-- The error is no qualified type. -/
private theorem accepts_error (q : QualifiedType) : q.accepts .error = false := by
  obtain ⟨package, name, pointer⟩ := q
  cases pointer <;> rfl

/-- A component is no error. -/
theorem isError_of_isComponent {r : Parameter} (h : isComponent s r) : r.type.isError = false := by
  cases htype : r.type with
  | error => simp [isComponent, htype, accepts_error] at h
  | _ => rfl

/-- The first component of a GET has to have the name of the body, and then it is the body. -/
theorem judge_of_isComponent {earlier : List Parameter} {r : Parameter}
    (hr : isComponent s r) (hearlier : ∀ q ∈ earlier, ¬ isComponent s q) {role : OutputRole}
    (h : judge s m .get earlier r = .ok role) : role = .body := by
  have hfilter : earlier.filter (isComponent s) = [] := List.filter_eq_nil_iff.mpr hearlier
  have hofName : OutputRole.ofName? "body" = some .body := OutputRole.ofName?_text .body
  rw [judge, if_neg (by simp [isError_of_isComponent hr]), if_pos (by simp [hr]), componentError?,
    hfilter, List.length_nil] at h
  by_cases hname : r.name = "body"
  · simp only [hname, if_true, judgeName, hofName] at h
    split at h <;> cases h
    rfl
  · simp [hname] at h

/-- A result with the name of the body has to be a component. -/
theorem isComponent_of_judge {earlier : List Parameter} {r : Parameter}
    (herror : r.type.isError = false) (hname : r.name = "body") {role : OutputRole}
    (h : judge s m .get earlier r = .ok role) : isComponent s r := by
  by_contra hr
  have hofName : OutputRole.ofName? "body" = some .body := OutputRole.ofName?_text .body
  have haccepts : OutputRole.body.accepts s r.type = false := by
    simpa [isComponent, OutputRole.accepts] using hr
  rw [judge, if_neg (by simp [herror]), if_neg (by simp [hr]), judgeName, hname, hofName] at h
  simp [haccepts] at h

/-- A GET without findings has a result that is a component. -/
theorem exists_isComponent {sse : Option Slot} (h : findings s m .get sse = []) :
    ∃ r ∈ m.results s.package, isComponent s r := by
  have hjoint := (List.append_eq_nil_iff.mp h).2
  have hany : (m.results s.package).any (isBodyAttempt s) := by
    by_contra hnone
    rw [Bool.not_eq_true] at hnone
    simp only [jointFindings, hnone] at hjoint
    simp at hjoint
  obtain ⟨r, hr, hattempt⟩ := List.any_eq_true.mp hany
  simp only [isBodyAttempt, Bool.and_eq_true, Bool.not_eq_true', Bool.or_eq_true,
    beq_iff_eq] at hattempt
  obtain ⟨herror, hcomponent | hname⟩ := hattempt
  · exact ⟨r, hr, hcomponent⟩
  · obtain ⟨earlier, later, hsplit⟩ := List.append_of_mem hr
    obtain ⟨role, hrole, -⟩ := exists_judge_eq_ok h hsplit
    exact ⟨r, hr, isComponent_of_judge herror hname hrole⟩

/-- **A GET without findings has a body.** -/
theorem isSome_body_of_findings {sse : Option Slot} (h : findings s m .get sse = []) :
    (read s m .get).body.isSome := by
  obtain ⟨r, hr⟩ := exists_isComponent h
  have hfind : ((m.results s.package).find? (isComponent s)).isSome :=
    List.find?_isSome.mpr ⟨r, hr⟩
  obtain ⟨first, hfirst⟩ := Option.isSome_iff_exists.mp hfind
  -- the first component is judged while no component stands before it
  obtain ⟨hcomponent, earlier, later, hsplit, hearlier⟩ := List.find?_eq_some_iff_append.mp hfirst
  obtain ⟨role, hrole, hmem⟩ := exists_judge_eq_ok h hsplit
  obtain rfl := judge_of_isComponent hcomponent (by simpa using hearlier) hrole
  have hlookup : ((filled s m .get).reverse.lookup .body).isSome :=
    List.lookup_isSome_iff.mpr ⟨_, List.mem_reverse.mpr hmem, by simp⟩
  simpa [read, ofFilled] using hlookup

end GoPages.HandlerOutputs
