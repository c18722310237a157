import AdaptiveBatch.Numeric.Dyadic

/-! # Shortest decimals

The shortest decimal that reads back as a given finite floating-point number, and of those the
nearest. A number `m · 2 ^ q` is read from every real between its midpoints with its two neighbours,
the midpoints included when `m` is even; so for 1, 2, … digits the two grid points around the number
are tested for lying in that interval, in natural numbers.

* **`Decimal`** — a nonnegative decimal `digits · 10 ^ exponent`;
* **`Tie`** — which of two equally near decimals is taken;
* **`Decimal.shortest`** — the search. -/

namespace AdaptiveBatch

/-- The nonnegative number `digits · 10 ^ exponent`. -/
structure Decimal where
  /-- The digits as one natural number. -/
  digits : Nat
  /-- The power of ten that scales the digits. -/
  exponent : Int
deriving DecidableEq, Repr

/-- Which of two equally near decimals is taken. -/
inductive Tie
  /-- The larger one. -/
  | up
  /-- The one with the even last digit. -/
  | even
deriving DecidableEq, Repr

namespace Decimal

/-- The exponent `k` with `10 ^ (k - 1) ≤ numerator / denominator < 10 ^ k`, found by stepping up
from `low`, which must not be larger; `steps` bounds the search. -/
def magnitude (numerator denominator : Nat) (low : Int) : (steps : Nat) → Int
  | 0 => low
  | steps + 1 =>
    if numerator * Nat.pow 10 (-low).toNat < denominator * Nat.pow 10 low.toNat then low
    else magnitude numerator denominator (low + 1) steps

/-- The interval of reals that read as one number, over a common denominator. -/
structure Interval where
  /-- Numerator of the lower end. -/
  low : Nat
  /-- Numerator of the number itself. -/
  value : Nat
  /-- Numerator of the upper end. -/
  high : Nat
  /-- The common denominator. -/
  denominator : Nat
  /-- Whether the ends belong to the interval. -/
  closed : Bool
deriving DecidableEq, Repr

/-- The interval around a positive dyadic number: half of the spacing to either side, a quarter
below a power of two that is not the least normal number. -/
def Interval.ofDyadic (d : Dyadic) : Interval :=
  let unit := Nat.pow 2 (d.exponent - 2).toNat
  let below := if d.significand = 4503599627370496 ∧ -1074 < d.exponent then 1 else 2
  { low := (4 * d.significand - below) * unit
    value := 4 * d.significand * unit
    high := (4 * d.significand + 2) * unit
    denominator := Nat.pow 2 (2 - d.exponent).toNat
    closed := d.significand % 2 == 0 }

/-- Whether `n · 10 ^ exponent` lies in the interval. -/
def Interval.contains (i : Interval) (n : Nat) (exponent : Int) : Bool :=
  let scaled := n * Nat.pow 10 exponent.toNat * i.denominator
  let ten := Nat.pow 10 (-exponent).toNat
  if i.closed then i.low * ten ≤ scaled && scaled ≤ i.high * ten
  else i.low * ten < scaled && scaled < i.high * ten

/-- The grid point of spacing `10 ^ exponent` that lies in the interval, the nearer one of two. -/
def Interval.gridPoint? (i : Interval) (tie : Tie) (exponent : Int) : Option Nat :=
  let numerator := i.value * Nat.pow 10 (-exponent).toNat
  let denominator := i.denominator * Nat.pow 10 exponent.toNat
  let below := numerator / denominator
  let twice := 2 * (numerator % denominator)
  match i.contains below exponent && below ≠ 0, i.contains (below + 1) exponent with
  | false, false => none
  | true, false => some below
  | false, true => some (below + 1)
  | true, true =>
    if twice < denominator then some below
    else if denominator < twice then some (below + 1)
    else match tie with
      | .up => some (below + 1)
      | .even => some (below + below % 2)

/-- Tries the grids with `count`, `count + 1`, … digits below the magnitude `k`; the exact grid of
17 digits always holds a point. -/
def search (i : Interval) (tie : Tie) (k : Int) (count : Nat) : (tries : Nat) → Decimal
  | 0 =>
    let numerator := i.value * Nat.pow 10 (17 - k).toNat
    let denominator := i.denominator * Nat.pow 10 (k - 17).toNat
    ⟨roundHalfEven numerator denominator, k - 17⟩
  | tries + 1 =>
    match i.gridPoint? tie (k - count) with
    | some n => ⟨n, k - count⟩
    | none => search i tie k (count + 1) tries

/-- Drops the zeros at the end of the digits. -/
def trim (d : Decimal) : (steps : Nat) → Decimal
  | 0 => d
  | steps + 1 =>
    if d.digits ≠ 0 ∧ d.digits % 10 = 0 then trim ⟨d.digits / 10, d.exponent + 1⟩ steps else d

/-- The shortest decimal that reads back as the magnitude of `d`, and the nearest of those. -/
def shortest (tie : Tie) (d : Dyadic) : Decimal :=
  if d.significand = 0 then ⟨0, 0⟩
  else
    let i := Interval.ofDyadic d
    trim (search i tie (magnitude i.value i.denominator (-324) 640) 1 17) 20

/-- The digits as characters. -/
def digitChars (d : Decimal) : List Char := Nat.toDigits 10 d.digits

end Decimal

end AdaptiveBatch
