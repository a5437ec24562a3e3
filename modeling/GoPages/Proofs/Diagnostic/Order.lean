import GoPages.Diagnostic
import Mathlib.Data.Prod.Lex
import Mathlib.Data.String.Basic
import Mathlib.Order.Compare
import Mathlib.Order.WithBot

/-!
# The order of diagnostics

Diagnostics are sorted by comparing their places and then their numbers. Such a comparison makes
sense only if it is that of an order, and it is: `Location.key` and `Diagnostic.key` say by what
locations and diagnostics are ordered, in linear orders that compare one component after the other.

* `Location.before_iff`, `Location.compare_eq_cmp` and `Diagnostic.le_iff` read the comparisons as
  those of the keys.
* `Location.compare` is oriented and transitive, and it calls two locations equal only if they are
  one known location or if both are unknown (`Location.compare_eq_eq_iff`).
-/

namespace GoPages

namespace Location

/-- What a location is ordered by: its file, then its line, then its column. Unknown locations have
none of these, and all of them come last. -/
def key (l : Location) : WithTop (String ×ₗ ℕ ×ₗ ℕ) :=
  if l.isKnown then (toLex (l.file, toLex (l.line, l.column)) : String ×ₗ ℕ ×ₗ ℕ) else ⊤

variable {l m n : Location}

/-- A known location is ordered by its file, then by its line, then by its column. -/
theorem key_of_isKnown (h : l.isKnown) :
    l.key = (toLex (l.file, toLex (l.line, l.column)) : String ×ₗ ℕ ×ₗ ℕ) := if_pos h

/-- Unknown locations come last. -/
theorem key_of_not_isKnown (h : ¬ l.isKnown) : l.key = ⊤ := if_neg h

/-- A location is before another one if its key is smaller. -/
theorem before_iff : l.before m ↔ l.key < m.key := by
  by_cases hl : l.isKnown
  · by_cases hm : m.isKnown
    · rw [key_of_isKnown hl, key_of_isKnown hm, WithTop.coe_lt_coe, Prod.Lex.toLex_lt_toLex,
        Prod.Lex.toLex_lt_toLex]
      simp [before, hl, hm]
    · rw [key_of_isKnown hl, key_of_not_isKnown hm]
      simp [before, hl, hm]
  · rw [key_of_not_isKnown hl]
    simp [before, hl]

/-- Comparing locations is comparing their keys. -/
theorem compare_eq_cmp (l m : Location) : l.compare m = cmp l.key m.key := by
  simp only [compare, before_iff, cmp, cmpUsing]

private theorem isLE_compare_iff : (l.compare m).isLE ↔ l.key ≤ m.key := by
  rw [compare_eq_cmp, Ordering.isLE_iff_ne_gt, cmp_eq_gt_iff, not_lt]

/-- Two locations have one key only if they are one known location, or are both unknown. -/
theorem key_eq_key_iff : l.key = m.key ↔ (l.isKnown ∧ l = m) ∨ (¬ l.isKnown ∧ ¬ m.isKnown) := by
  by_cases hl : l.isKnown
  · by_cases hm : m.isKnown
    · rw [key_of_isKnown hl, key_of_isKnown hm, WithTop.coe_inj, toLex_inj, Prod.mk.injEq,
        toLex_inj, Prod.mk.injEq]
      obtain ⟨file, line, column⟩ := l
      obtain ⟨file', line', column'⟩ := m
      simp [hl, hm]
    · have hne : l ≠ m := by
        rintro rfl
        exact hm hl
      rw [key_of_isKnown hl, key_of_not_isKnown hm]
      simp [hl, hne]
  · by_cases hm : m.isKnown
    · rw [key_of_not_isKnown hl, key_of_isKnown hm]
      simp [hl, hm]
    · rw [key_of_not_isKnown hl, key_of_not_isKnown hm]
      simp [hl, hm]

/-- Locations that are compared as equal are one known location, or both are unknown. -/
theorem compare_eq_eq_iff :
    l.compare m = .eq ↔ (l.isKnown ∧ l = m) ∨ (¬ l.isKnown ∧ ¬ m.isKnown) := by
  rw [compare_eq_cmp, cmp_eq_eq_iff, key_eq_key_iff]

instance : Std.TransCmp compare where
  eq_swap {l m} := by rw [compare_eq_cmp, compare_eq_cmp, cmp_swap]
  isLE_trans {l m n} hlm hmn := by
    rw [isLE_compare_iff] at hlm hmn ⊢
    exact hlm.trans hmn

end Location

namespace Diagnostic

/-- What a diagnostic is ordered by: its place, and then its number. -/
def key (d : Diagnostic) : WithTop (String ×ₗ ℕ ×ₗ ℕ) ×ₗ ℕ := toLex (d.location.key, d.seq)

/-- Comparing diagnostics is comparing their keys. -/
theorem le_iff (d e : Diagnostic) : d.le e ↔ d.key ≤ e.key := by
  rw [key, key, Prod.Lex.toLex_le_toLex, le, Bool.or_eq_true, Bool.and_eq_true,
    Location.before_iff, Bool.not_eq_true', ← Bool.not_eq_true, Location.before_iff,
    decide_eq_true_eq]
  grind

/-- Diagnostics are ordered by comparing their places and then their numbers. -/
theorem le_eq_isLE_compare (d e : Diagnostic) :
    d.le e = ((d.location.compare e.location).then (Ord.compare d.seq e.seq)).isLE := by
  rw [Bool.eq_iff_iff, le_iff, key, key, Prod.Lex.toLex_le_toLex, Location.compare_eq_cmp,
    Ordering.isLE_then_iff_or, cmp_eq_lt_iff, cmp_eq_eq_iff, Nat.isLE_compare]

end Diagnostic

end GoPages
