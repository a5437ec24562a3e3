import Mathlib.Algebra.Order.Ring.Nat
import GoPages.Literal

/-!
# Numerals in escapes

`Literal.digits?` reads a fixed number of digits. What it reads is a numeral of this length, with
the number that it denotes in its base (`Literal.digits?_eq_some_iff`). Hexadecimal digits may be in
lower or in upper case.
-/

namespace GoPages.Literal

/-- The character is a digit in the base, in lower or in upper case, and stands for the number. -/
def IsDigit (base : Nat) (c : Char) (d : Nat) : Prop :=
  d < base ∧ (c = d.digitChar ∨ c = d.digitChar.toUpper)

instance (base : Nat) (c : Char) (d : Nat) : Decidable (IsDigit base c d) := by
  unfold IsDigit
  infer_instance

/-- The text is a numeral in the base, and denotes the number. -/
inductive IsNumeral (base : Nat) : List Char → Nat → Prop where
  | nil : IsNumeral base [] 0
  | append {cs : List Char} {n : Nat} {c : Char} {d : Nat} (hcs : IsNumeral base cs n)
      (hc : IsDigit base c d) : IsNumeral base (cs ++ [c]) (n * base + d)

/-- A numeral of some digits is below the power of its base with this exponent. -/
theorem IsNumeral.lt {base : Nat} {cs : List Char} {n : Nat} (h : IsNumeral base cs n) :
    n < base ^ cs.length := by
  induction h with
  | nil => exact Nat.one_pos
  | @append cs n c d _ hc ih =>
    calc n * base + d < n * base + base := Nat.add_lt_add_left hc.1 _
      _ = (n + 1) * base := by rw [Nat.succ_mul]
      _ ≤ base ^ cs.length * base := Nat.mul_le_mul_right base ih
      _ = base ^ (cs ++ [c]).length := by rw [List.length_append, List.length_singleton, pow_succ]

/-- A numeral is made of digits. -/
theorem IsNumeral.exists_isDigit {base : Nat} {cs : List Char} {n : Nat} (h : IsNumeral base cs n) :
    ∀ c ∈ cs, ∃ d, IsDigit base c d := by
  induction h with
  | nil => exact List.forall_mem_nil _
  | @append cs n c d _ hc ih =>
    exact List.forall_mem_append.mpr ⟨ih, List.forall_mem_singleton.mpr ⟨d, hc⟩⟩

/-! ### Digits -/

/-- A reader of digits that knows only ASCII characters is checked on these. -/
theorem eq_some_iff_isDigit {base : Nat} {digit? : Char → Option Nat}
    (hascii : ∀ c, (digit? c).isSome → c.toNat < 128)
    (hspell : ∀ k < 128, ∀ d ∈ digit? (Char.ofNat k), IsDigit base (Char.ofNat k) d)
    (hread : ∀ d < base, digit? d.digitChar = some d ∧ digit? d.digitChar.toUpper = some d)
    (c : Char) (d : Nat) : digit? c = some d ↔ IsDigit base c d := by
  constructor
  · intro h
    have hdigit := hspell c.toNat (hascii c (Option.isSome_of_eq_some h)) d
    rw [Char.ofNat_toNat] at hdigit
    exact hdigit h
  · rintro ⟨hd, rfl | rfl⟩
    · exact (hread d hd).1
    · exact (hread d hd).2

/-- Hexadecimal digits are read in both cases. -/
theorem hexDigit?_eq_some_iff (c : Char) (d : Nat) :
    Json.hexDigit? c = some d ↔ IsDigit 16 c d := by
  refine eq_some_iff_isDigit (fun c h => ?_) (by decide) (by decide) c d
  rw [Json.hexDigit?] at h
  split at h
  · next hc => exact lt_of_le_of_lt (UInt32.le_iff_toNat_le.mp hc.2) (by decide)
  split at h
  · next hc => exact lt_of_le_of_lt (UInt32.le_iff_toNat_le.mp hc.2) (by decide)
  split at h
  · next hc => exact lt_of_le_of_lt (UInt32.le_iff_toNat_le.mp hc.2) (by decide)
  · cases h

/-- Octal digits are those below eight. -/
theorem octalDigit?_eq_some_iff (c : Char) (d : Nat) :
    octalDigit? c = some d ↔ IsDigit 8 c d := by
  refine eq_some_iff_isDigit (fun c h => ?_) (by decide) (by decide) c d
  rw [octalDigit?] at h
  split at h
  · next hc => exact lt_of_le_of_lt (UInt32.le_iff_toNat_le.mp hc.2) (by decide)
  · cases h

section Read

variable {base : Nat} {digit? : Char → Option Nat}
  (hdigit : ∀ c d, digit? c = some d ↔ IsDigit base c d)
include hdigit

/-- What has been read of a numeral is the value with which reading goes on. -/
theorem digits?_append {text : List Char} {n : Nat} (h : IsNumeral base text n) (count : Nat)
    (cs : List Char) :
    digits? base digit? (text.length + count) 0 (text ++ cs) =
      digits? base digit? count n cs := by
  induction h generalizing count cs with
  | nil => rw [List.length_nil, Nat.zero_add, List.nil_append]
  | @append text n c d _ hc ih =>
    rw [List.length_append, List.length_singleton, Nat.add_assoc, Nat.add_comm 1, List.append_assoc,
      ih, List.singleton_append, digits?, (hdigit c d).mpr hc]

/-- What is read goes on with the numeral that has been read before. -/
theorem exists_isNumeral_of_digits? {before : List Char} {value count n : Nat}
    {cs rest : List Char} (hbefore : IsNumeral base before value)
    (h : digits? base digit? count value cs = some (n, rest)) :
    ∃ text, cs = text ++ rest ∧ text.length = count ∧ IsNumeral base (before ++ text) n := by
  induction count generalizing before value cs with
  | zero =>
    obtain ⟨rfl, rfl⟩ := Prod.mk.inj (Option.some.inj h)
    exact ⟨[], rfl, rfl, by rwa [List.append_nil]⟩
  | succ count ih =>
    cases cs with
    | nil => cases h
    | cons c cs =>
      rw [digits?] at h
      split at h
      · next d hd =>
        obtain ⟨text, rfl, hlength, hnumeral⟩ := ih (hbefore.append ((hdigit c d).mp hd)) h
        refine ⟨c :: text, rfl, by rw [List.length_cons, hlength], ?_⟩
        rwa [List.append_assoc] at hnumeral
      · cases h

/-- **Reading digits** finds the numeral of the given length, if there is one. -/
theorem digits?_eq_some_iff {count n : Nat} {cs rest : List Char} :
    digits? base digit? count 0 cs = some (n, rest) ↔
      ∃ text, cs = text ++ rest ∧ text.length = count ∧ IsNumeral base text n := by
  constructor
  · exact exists_isNumeral_of_digits? hdigit .nil
  · rintro ⟨text, rfl, rfl, hnumeral⟩
    exact digits?_append hdigit hnumeral 0 rest

end Read

end GoPages.Literal
