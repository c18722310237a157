/-! # Finite floating-point numbers as dyadic fractions

A finite floating-point number is `± significand · 2 ^ exponent`. Everything that must be exact
about such a number (its decimal text, the whole nanoseconds nearest to it) is computed from this
form in natural numbers.

* **`Dyadic.ofFloat?`** — the form of a finite number;
* **`Dyadic.scaledFraction`** — the number times a power of ten, as numerator and denominator;
* **`roundHalfEven`**, **`roundHalfUp`** — the quotient rounded to the nearest natural number. -/

namespace AdaptiveBatch

/-- The natural number nearest to `numerator / denominator`; a tie goes to the even one. -/
def roundHalfEven (numerator denominator : Nat) : Nat :=
  let quotient := numerator / denominator
  let twice := 2 * (numerator % denominator)
  if twice < denominator then quotient
  else if denominator < twice then quotient + 1
  else quotient + quotient % 2

/-- The natural number nearest to `numerator / denominator`; a tie goes to the larger one. -/
def roundHalfUp (numerator denominator : Nat) : Nat :=
  (2 * numerator + denominator) / (2 * denominator)

/-- A finite floating-point number in exact form. -/
structure Dyadic where
  /-- Whether the sign bit is set. -/
  negative : Bool
  /-- The significand, an integer below `2 ^ 53`. -/
  significand : Nat
  /-- The exponent of two that scales the significand. -/
  exponent : Int
deriving DecidableEq, Repr

namespace Dyadic

/-- The exact form of a floating-point number, or `none` for an infinity or a value that is not a
number. -/
def ofFloat? (x : Float) : Option Dyadic :=
  let bits := x.toBits.toNat
  let negative := decide (9223372036854775808 ≤ bits)
  let biased : Nat := bits / 4503599627370496 % 2048
  let fraction := bits % 4503599627370496
  if biased = 2047 then none
  else if biased = 0 then some ⟨negative, fraction, -1074⟩
  else some ⟨negative, 4503599627370496 + fraction, (biased : Int) - 1075⟩

/-- The magnitude times `10 ^ power`, as a numerator and a positive denominator. -/
def scaledFraction (d : Dyadic) (power : Nat) : Nat × Nat :=
  (d.significand * Nat.pow 10 power * Nat.pow 2 d.exponent.toNat, Nat.pow 2 (-d.exponent).toNat)

/-- The natural number nearest to the magnitude times `10 ^ power`, ties to even. -/
def roundScaled (d : Dyadic) (power : Nat) : Nat :=
  roundHalfEven (d.scaledFraction power).1 (d.scaledFraction power).2

end Dyadic

end AdaptiveBatch
