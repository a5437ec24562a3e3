/-!
# Sorting

`sortBy` sorts a list by repeated insertion. It recurses on the list alone, so that what is sorted
by it can be evaluated in proofs. It only reorders the items (`sortBy_perm`).
-/

namespace GoPages

/-- Puts an item before the first one that it stands no later than. -/
def insertBy {α : Type} (le : α → α → Bool) (a : α) : List α → List α
  | [] => [a]
  | b :: bs => if le a b then a :: b :: bs else b :: insertBy le a bs

/-- Sorts a list. Items that stand no later than each other keep their order. -/
def sortBy {α : Type} (le : α → α → Bool) : List α → List α
  | [] => []
  | a :: as => insertBy le a (sortBy le as)

/-- Inserting an item adds this item alone. -/
theorem insertBy_perm {α : Type} (le : α → α → Bool) (a : α) (as : List α) :
    (insertBy le a as).Perm (a :: as) := by
  induction as with
  | nil => exact .refl _
  | cons b bs ih =>
    rw [insertBy]
    split
    · exact .refl _
    · exact (ih.cons b).trans (.swap a b bs)

/-- Sorting only reorders the items. -/
theorem sortBy_perm {α : Type} (le : α → α → Bool) (as : List α) : (sortBy le as).Perm as := by
  induction as with
  | nil => exact .refl _
  | cons a as ih => exact (insertBy_perm le a _).trans (ih.cons a)

end GoPages
