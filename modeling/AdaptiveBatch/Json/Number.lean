import AdaptiveBatch.Datum
import AdaptiveBatch.Numeric.Word

/-! # Numbers of JSON texts

A numeral without a fraction and an exponent is an integer when it fits into 64 bits, and `-0` is a
floating-point number. Any other numeral is read in two roundings: its leading digits, as many as
fit into 64 bits, become a floating-point number, which is multiplied or divided by a power of ten.

* **`Numeral`** — a numeral split into its parts; **`Numeral.toDatum`** — its value. -/

namespace AdaptiveBatch.Json

/-- The parts of a numeral. -/
structure Numeral where
  /-- Whether a minus sign stands in front. -/
  negative : Bool
  /-- The digits before the point. -/
  whole : List Char
  /-- The digits after the point, if there is one. -/
  fraction : Option (List Char)
  /-- The exponent, if there is one: whether it is negative, and its digits. -/
  exponent : Option (Bool × List Char)
deriving DecidableEq, Repr

namespace Numeral

/-- Appends digits to a 64-bit count for as long as it stays one; gives the count and the number of
digits not appended. -/
def gather (bound : Nat) : Nat → List Char → Nat × Nat
  | value, [] => (value, 0)
  | value, c :: rest =>
    let next := 10 * value + (c.toNat - '0'.toNat)
    if next < bound then gather bound next rest else (value, rest.length + 1)

/-- The power of ten as a floating-point number. -/
def tenTo (n : Nat) : Float := Float.ofScientific 1 false n

/-- A floating-point number times a power of ten. A large negative power is applied in steps;
`steps` bounds their number. The result is `none` when it is infinite. -/
def scaleByTen (x : Float) (power : Int) : (steps : Nat) → Option Float
  | 0 => some x
  | steps + 1 =>
    if power.natAbs ≤ 308 then
      if 0 ≤ power then
        let y := x * tenTo power.toNat
        if y.isInf then none else some y
      else some (x / tenTo power.natAbs)
    else if x == 0 then some x
    else if 0 ≤ power then none
    else scaleByTen (x / tenTo 308) (power + 308) steps

/-- The largest exponent that is taken literally. -/
def exponentLimit : Nat := 2147483648

/-- The magnitude of a numeral with a fraction, an exponent or too many digits. -/
def magnitude? (n : Numeral) : Option Float :=
  let (head, dropped) := gather Word.limit 0 n.whole
  let fraction := n.fraction.getD []
  let (significand, unread) := gather Word.limit head fraction
  let start : Int := dropped - (fraction.length - unread : Nat)
  match n.exponent with
  | none => scaleByTen (Word.toFloat significand) start (start.natAbs / 308 + 2)
  | some (below, digits) =>
    match gather exponentLimit 0 digits with
    | (exponent, 0) =>
      let power := if below then start - exponent else start + exponent
      -- beyond this power a nonzero number has become zero
      let power := max power (-100000)
      scaleByTen (Word.toFloat significand) power (power.natAbs / 308 + 2)
    | _ => if significand ≠ 0 ∧ !below then none else some 0

/-- The value of a numeral. -/
def toDatum (n : Numeral) : Datum :=
  let general : Datum := match n.magnitude? with
    | some x => .float (if n.negative then -x else x)
    | none => .unrepresentable
  match n.fraction, n.exponent, gather Word.limit 0 n.whole with
  | none, none, (value, 0) =>
    if !n.negative then .int value
    else if 0 < value ∧ value ≤ Word.limit / 2 then .int (-value)
    else .float (-Word.toFloat value)
  | _, _, _ => general

end Numeral

end AdaptiveBatch.Json
