import GoPages.Sorting
import Mathlib.Data.List.Nodup
import Mathlib.Order.Lattice

/-!
# What sorting gives

Items that are sorted by a key stand in the order of their keys (`pairwise_sortBy`). If their keys
are different then the sorted list depends on the items alone, and not on the order in which they
came (`sortBy_eq_of_perm`).
-/

namespace GoPages

/-! ### Mapped items -/

private theorem insertBy_map {α β : Type} (le : β → β → Bool) (f : α → β) (a : α) (as : List α) :
    insertBy le (f a) (as.map f) = (insertBy (fun a b => le (f a) (f b)) a as).map f := by
  induction as with
  | nil => rfl
  | cons b bs ih =>
    rw [List.map_cons, insertBy, insertBy, ih]
    split <;> rfl

/-- Sorting goes with a map if the comparison does. -/
theorem sortBy_map {α β : Type} (le : β → β → Bool) (f : α → β) (as : List α) :
    sortBy le (as.map f) = (sortBy (fun a b => le (f a) (f b)) as).map f := by
  induction as with
  | nil => rfl
  | cons a as ih => rw [List.map_cons, sortBy, sortBy, ih, insertBy_map]

/-! ### Orders that agree -/

private theorem insertBy_congr {α : Type} {le le' : α → α → Bool} {a : α} {as : List α}
    (h : ∀ b ∈ as, le a b = le' a b) : insertBy le a as = insertBy le' a as := by
  induction as with
  | nil => rfl
  | cons b bs ih =>
    obtain ⟨hb, hbs⟩ := List.forall_mem_cons.mp h
    rw [insertBy, insertBy, hb, ih hbs]

/-- Sorting depends on how the items compare, and on nothing else. -/
theorem sortBy_congr {α : Type} {le le' : α → α → Bool} {as : List α}
    (h : ∀ a ∈ as, ∀ b ∈ as, le a b = le' a b) : sortBy le as = sortBy le' as := by
  induction as with
  | nil => rfl
  | cons a as ih =>
    have hrest : sortBy le as = sortBy le' as := ih fun b hb c hc =>
      h b (List.mem_cons_of_mem a hb) c (List.mem_cons_of_mem a hc)
    rw [sortBy, sortBy, hrest]
    refine insertBy_congr fun b hb => h a List.mem_cons_self b (List.mem_cons_of_mem a ?_)
    exact (sortBy_perm le' as).mem_iff.mp hb

/-! ### Keys -/

section Filter

variable {α β : Type} [LinearOrder β] {key : α → β} {as bs : List α}

/-- Lists with the same items of each key have the same items. -/
private theorem mem_iff_of_filter_key_eq
    (h : ∀ k, as.filter (fun a => key a = k) = bs.filter fun b => key b = k) (a : α) :
    a ∈ as ↔ a ∈ bs := by
  have hkey := congrArg (a ∈ ·) (h (key a))
  simpa using hkey

/-- A list in the order of keys is known by the items with each key, in their order. -/
theorem eq_of_filter_key_eq (has : as.Pairwise fun a b => key a ≤ key b)
    (hbs : bs.Pairwise fun a b => key a ≤ key b)
    (h : ∀ k, as.filter (fun a => key a = k) = bs.filter fun b => key b = k) : as = bs := by
  induction as generalizing bs with
  | nil =>
    symm
    rw [List.eq_nil_iff_forall_not_mem]
    exact fun b hb => List.not_mem_nil ((mem_iff_of_filter_key_eq h b).mpr hb)
  | cons a as ih =>
    have hmem := mem_iff_of_filter_key_eq h
    cases bs with
    | nil => exact absurd ((hmem a).mp List.mem_cons_self) List.not_mem_nil
    | cons b bs =>
      obtain ⟨ha, has'⟩ := List.pairwise_cons.mp has
      obtain ⟨hb, hbs'⟩ := List.pairwise_cons.mp hbs
      have hab : key a ≤ key b := by
        rcases List.mem_cons.mp ((hmem b).mpr List.mem_cons_self) with heq | hmem
        · rw [heq]
        · exact ha b hmem
      have hba : key b ≤ key a := by
        rcases List.mem_cons.mp ((hmem a).mp List.mem_cons_self) with heq | hmem
        · rw [heq]
        · exact hb a hmem
      have hkey : key b = key a := le_antisymm hba hab
      -- the first items with this key are the first items of all
      obtain ⟨rfl, -⟩ : a = b ∧ _ := by simpa [hkey] using h (key a)
      refine congrArg (a :: ·) (ih has' hbs' fun k => ?_)
      have hk := h k
      rw [List.filter_cons, List.filter_cons] at hk
      split at hk
      · exact (List.cons.inj hk).2
      · exact hk

end Filter

section Key

variable {α β : Type} [LinearOrder β] {le : α → α → Bool} {key : α → β}
variable (hle : ∀ a b, le a b ↔ key a ≤ key b)
include hle

/-- An item is inserted where its key belongs. -/
private theorem pairwise_insertBy {a : α} {as : List α} (h : as.Pairwise fun a b => key a ≤ key b) :
    (insertBy le a as).Pairwise fun a b => key a ≤ key b := by
  induction as with
  | nil => exact List.pairwise_singleton _ a
  | cons b bs ih =>
    obtain ⟨hb, hbs⟩ := List.pairwise_cons.mp h
    rw [insertBy]
    split
    · next hab =>
      have hab : key a ≤ key b := (hle a b).mp hab
      refine List.pairwise_cons.mpr ⟨fun c hc => ?_, h⟩
      rcases List.mem_cons.mp hc with rfl | hc
      · exact hab
      · exact le_trans hab (hb c hc)
    · next hab =>
      have hba : key b ≤ key a := le_of_not_ge fun hab' => hab ((hle a b).mpr hab')
      refine List.pairwise_cons.mpr ⟨fun c hc => ?_, ih hbs⟩
      rcases List.mem_cons.mp ((insertBy_perm le a bs).mem_iff.mp hc) with rfl | hc
      · exact hba
      · exact hb c hc

/-- Sorted items stand in the order of their keys. -/
theorem pairwise_sortBy (as : List α) : (sortBy le as).Pairwise fun a b => key a ≤ key b := by
  induction as with
  | nil => exact List.Pairwise.nil
  | cons a as ih => exact pairwise_insertBy hle ih

variable {as bs : List α} (hnodup : (as.map key).Nodup)
include hnodup

/-- Sorted items with different keys stand strictly in the order of their keys. -/
theorem pairwise_lt_sortBy : (sortBy le as).Pairwise fun a b => key a < key b := by
  have hsorted : ((sortBy le as).map key).Nodup :=
    ((sortBy_perm le as).map key).nodup_iff.mpr hnodup
  have hne : (sortBy le as).Pairwise fun a b => key a ≠ key b := List.pairwise_map.mp hsorted
  exact (pairwise_sortBy hle as).imp₂ (fun a b hab hne => lt_of_le_of_ne hab hne) hne

/-- What stands before an item in a sorted list are the items with smaller keys. -/
theorem mem_before_iff_of_sortBy {before after : List α} {a b : α}
    (hsplit : sortBy le as = before ++ a :: after) : b ∈ before ↔ b ∈ as ∧ key b < key a := by
  have hsorted := pairwise_lt_sortBy hle hnodup
  rw [hsplit, List.pairwise_append, List.pairwise_cons] at hsorted
  obtain ⟨-, ⟨hafter, -⟩, hbefore⟩ := hsorted
  have hmem : b ∈ as ↔ b ∈ before ∨ b = a ∨ b ∈ after := by
    rw [← (sortBy_perm le as).mem_iff, hsplit, List.mem_append, List.mem_cons]
  constructor
  · intro hb
    exact ⟨hmem.mpr (.inl hb), hbefore b hb a List.mem_cons_self⟩
  · rintro ⟨hb, hlt⟩
    rcases hmem.mp hb with hb | rfl | hb
    · exact hb
    · exact absurd hlt (lt_irrefl _)
    · exact absurd hlt (lt_asymm (hafter b hb))

/-- Items with different keys have one sorted list, in whatever order they come. -/
theorem sortBy_eq_of_perm (hperm : as.Perm bs) : sortBy le as = sortBy le bs := by
  have hsame : (sortBy le as).Perm (sortBy le bs) :=
    (sortBy_perm le as).trans (hperm.trans (sortBy_perm le bs).symm)
  refine hsame.eq_of_pairwise (fun a b ha hb hab hba => ?_) (pairwise_sortBy hle as)
    (pairwise_sortBy hle bs)
  have ha : a ∈ as := (sortBy_perm le as).mem_iff.mp ha
  have hb : b ∈ as := hperm.mem_iff.mpr ((sortBy_perm le bs).mem_iff.mp hb)
  exact List.inj_on_of_nodup_map hnodup ha hb (le_antisymm hab hba)

end Key

end GoPages
