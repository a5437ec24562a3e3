import Mathlib.Data.List.Forall2
import Mathlib.Data.List.Induction

/-!
# Turns

In a pass over a list each element has its turn after those before it, and what it gives may depend
on them. `inTurn` are the gifts of all elements in their order.

* `inTurn_append_singleton` is the step: one more element has its turn after all others.
* `mem_inTurn_iff`: what is given is given at the turn of an element.
* `inTurn_guard` and `filter_inTurn`: where nobody looks back, taking turns is filtering.
* `forall₂_inTurn` compares two passes over one list, turn by turn.
-/

namespace GoPages

variable {α β γ : Type}

/-- What the elements of a list give, each of them after those before it. -/
def inTurn (give : List α → α → Option β) (as : List α) : List β :=
  (List.range as.length).filterMap fun i => as[i]?.bind (give (as.take i))

@[simp] theorem inTurn_nil (give : List α → α → Option β) : inTurn give [] = [] := rfl

/-- The last element has its turn after all others. -/
theorem inTurn_append_singleton (give : List α → α → Option β) (as : List α) (a : α) :
    inTurn give (as ++ [a]) = inTurn give as ++ (give as a).toList := by
  rw [inTurn, List.length_append, List.length_singleton, List.range_succ, List.filterMap_append]
  congr 1
  · refine List.filterMap_congr fun i hi => ?_
    have hlt := List.mem_range.mp hi
    rw [List.getElem?_append_left hlt, List.take_append_of_le_length (Nat.le_of_lt hlt)]
  · simp only [List.filterMap_cons, List.filterMap_nil, List.getElem?_concat_length,
      List.take_left', Option.bind_some]
    cases give as a <;> rfl

/-- What is given is given at the turn of an element. -/
theorem mem_inTurn_iff {give : List α → α → Option β} {as : List α} {b : β} :
    b ∈ inTurn give as ↔
      ∃ before a after, as = before ++ a :: after ∧ give before a = some b := by
  induction as using List.reverseRecOn with
  | nil => simp
  | append_singleton as last ih =>
    rw [inTurn_append_singleton, List.mem_append, ih, Option.mem_toList]
    constructor
    · rintro (⟨before, a, after, rfl, hgive⟩ | hgive)
      · exact ⟨before, a, after ++ [last], by simp, hgive⟩
      · exact ⟨as, last, [], rfl, hgive⟩
    · rintro ⟨before, a, after, heq, hgive⟩
      -- the turn is that of the last element, or it comes before
      rcases List.eq_nil_or_concat after with rfl | ⟨after, b, rfl⟩
      · obtain ⟨rfl, hlast⟩ := List.append_inj' heq rfl
        cases hlast
        exact .inr hgive
      · rw [List.concat_eq_append, ← List.cons_append, ← List.append_assoc] at heq
        obtain ⟨rfl, -⟩ := List.append_inj' heq rfl
        exact .inl ⟨before, a, after, rfl, hgive⟩

/-- Elements that do not look at those before them. -/
theorem inTurn_guard (p : α → Bool) (as : List α) :
    inTurn (fun _ a => if p a then some a else none) as = as.filter p := by
  induction as using List.reverseRecOn with
  | nil => rfl
  | append_singleton as a ih =>
    rw [inTurn_append_singleton, ih, List.filter_append, List.filter_singleton]
    cases p a <;> rfl

/-- Gifts that are filtered are filtered at each turn. -/
theorem filter_inTurn (give : List α → α → Option β) (q : β → Bool) (as : List α) :
    (inTurn give as).filter q = inTurn (fun before a => (give before a).filter q) as := by
  induction as using List.reverseRecOn with
  | nil => rfl
  | append_singleton as a ih =>
    rw [inTurn_append_singleton, inTurn_append_singleton, List.filter_append, ih,
      Option.toList_filter]

/-- If two passes are related at each turn, then so is all that they give. -/
theorem forall₂_inTurn {give : List α → α → Option β} {give' : List α → α → Option γ}
    {R : β → γ → Prop} (h : ∀ before a, Option.Rel R (give before a) (give' before a))
    (as : List α) : List.Forall₂ R (inTurn give as) (inTurn give' as) := by
  induction as using List.reverseRecOn with
  | nil => exact .nil
  | append_singleton as a ih =>
    rw [inTurn_append_singleton, inTurn_append_singleton]
    refine List.rel_append ih ?_
    match give as a, give' as a, h as a with
    | some _, some _, .some hr => exact .cons hr .nil
    | none, none, .none => exact .nil

/-- An element that is kept exactly if it gives something is related to what it gives. -/
theorem rel_guard {R : α → β → Prop} {a : α} {p : Bool} {b? : Option β} (hp : p = b?.isSome)
    (hR : ∀ b, b? = some b → R a b) : Option.Rel R (if p then some a else none) b? := by
  subst hp
  cases b? with
  | none => exact .none
  | some b => exact .some (hR b rfl)

/-- Lists that are related item by item are related at their heads. -/
theorem rel_head? {R : α → β → Prop} {as : List α} {bs : List β} (h : List.Forall₂ R as bs) :
    Option.Rel R as.head? bs.head? := by
  cases h with
  | nil => exact .none
  | cons hr _ => exact .some hr

end GoPages
