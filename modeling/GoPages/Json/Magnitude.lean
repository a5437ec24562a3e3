import GoPages.Json.Parser

/-!
# The magnitude of numbers

A number that is read becomes a double. Its magnitude is a significand times a power of ten: the
significand is made of the leading digits that fit into 64 bits, and the digits after them count for
the power alone, if they stand before the point. Both factors are rounded, and so is their product,
which therefore need not be the double nearest to the number.

* `nearest` rounds to 53 binary digits.
* `fit` collects the digits that fit.
* `Magnitude.isFinite` says whether the product is within the range of double precision.
-/

namespace GoPages.Json

/-! ### Rounding -/

/-- The natural number nearest to `n` that has 53 binary digits before its zeros. Of two that are
equally near it is the one with an even last digit. -/
def nearest (n : Nat) : Nat :=
  let unit := Nat.pow 2 (n.log2 - 52)
  let whole := n / unit
  let rest := n % unit
  if unit < 2 * rest ∨ (unit = 2 * rest ∧ whole % 2 = 1) then (whole + 1) * unit else whole * unit

/-- The least natural number that is rounded beyond the range of double precision. -/
def doubleBound : Nat := Nat.pow 2 1024 - Nat.pow 2 970

/-! ### Significands -/

/-- Appends decimal digits to `n` as long as it stays below `2 ^ 64`. Gives the number and the
digits that are left. -/
def fit (n : Nat) : List Char → Nat × List Char
  | [] => (n, [])
  | d :: ds =>
    let longer := n * 10 + (d.toNat - '0'.toNat)
    if longer < Nat.pow 2 64 then fit longer ds else (n, d :: ds)

/-- A number without its sign, as it is read: `significand * 10 ^ exponent`. -/
structure Magnitude where
  significand : Nat
  exponent : Int

namespace Magnitude

/-- The magnitude of a number with the given digits before and after its point and the given
exponent. -/
def ofDigits (whole fraction : List Char) (exponent : Int) : Magnitude :=
  let (start, skipped) := fit 0 whole
  let (significand, ignored) := fit start fraction
  ⟨significand, exponent + skipped.length + ignored.length - fraction.length⟩

/-- Is the magnitude within the range of double precision? -/
def isFinite (m : Magnitude) : Bool :=
  if m.significand = 0 ∨ m.exponent < 0 then true
  else if 308 < m.exponent then false
  else nearest m.significand * nearest (Nat.pow 10 m.exponent.toNat) < doubleBound

end Magnitude

end GoPages.Json
