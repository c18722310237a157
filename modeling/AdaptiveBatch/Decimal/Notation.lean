import AdaptiveBatch.Decimal.Shortest

/-! # Notations of floating-point numbers

Three texts of a floating-point number occur in what the scheduler reads and writes.

* **`FloatText.positional`** — shortest digits, never an exponent, an integer without a point; used
  in messages;
* **`FloatText.positionalPoint`** — the same with `.0` after an integer; used in configuration
  files;
* **`FloatText.compact`** — shortest digits, an exponent for magnitudes outside `10 ^ -5` to
  `10 ^ 16`; used in JSON;
* **`FloatText.fixed`** — a fixed number of places, rounded from the exact value, ties to even; used
  in reports. -/

namespace AdaptiveBatch.Decimal

/-- The text of a decimal without an exponent. `point` adds `.0` to an integer. -/
def positional (point : Bool) (d : Decimal) : List Char :=
  let digits := d.digitChars
  if 0 ≤ d.exponent then
    digits ++ List.replicate d.exponent.toNat '0' ++ (if point then ['.', '0'] else [])
  else
    let places := (-d.exponent).toNat
    let padded := List.replicate (places + 1 - digits.length) '0' ++ digits
    padded.take (padded.length - places) ++ '.' :: padded.drop (padded.length - places)

/-- The text of a decimal with an exponent, one digit before the point. -/
def scientific (d : Decimal) : List Char :=
  let power : Int := d.exponent + d.digitChars.length - 1
  let exponent := 'e' :: (if power < 0 then ['-'] else []) ++ Nat.toDigits 10 power.natAbs
  match d.digitChars with
  | [] => exponent
  | [c] => c :: exponent
  | c :: rest => c :: '.' :: rest ++ exponent

/-- The text of a decimal as JSON numbers are written: positional with a point while the leading
digit stands between the fifth place after the point and the sixteenth before it. -/
def compact (d : Decimal) : List Char :=
  let power : Int := d.exponent + d.digitChars.length
  if d.digits = 0 then ['0', '.', '0']
  else if -5 < power ∧ power ≤ 16 then d.positional true
  else d.scientific

end AdaptiveBatch.Decimal

namespace AdaptiveBatch.FloatText

/-- The text of the magnitude with its sign, or the name of a value that is not finite. -/
def signed (notANumber infinity : String) (tie : Tie) (text : Decimal → List Char) (x : Float) :
    String :=
  match Dyadic.ofFloat? x with
  | none =>
    if x.isNaN then notANumber else if x < 0 then "-" ++ infinity else infinity
  | some d => (if d.negative then "-" else "") ++ String.ofList (text (Decimal.shortest tie d))

/-- Shortest digits without an exponent: `1000`, `0.00001`, `-0`, `NaN`, `inf`. -/
def positional (x : Float) : String := signed "NaN" "inf" .up (Decimal.positional false) x

/-- Shortest digits without an exponent and with a point: `1000.0`, `0.00001`, `nan`, `inf`. -/
def positionalPoint (x : Float) : String := signed "nan" "inf" .up (Decimal.positional true) x

/-- Shortest digits, with an exponent when the magnitude is very large or very small; a value that
is not finite is `null`. -/
def compact (x : Float) : String :=
  match Dyadic.ofFloat? x with
  | none => "null"
  | some _ => signed "" "" .even Decimal.compact x

/-- A finite number with exactly `places` digits after the point. -/
def fixed (places : Nat) (x : Float) : String :=
  match Dyadic.ofFloat? x with
  | none => positional x
  | some d =>
    (if d.negative then "-" else "") ++
      String.ofList (if places = 0 then Nat.toDigits 10 (d.roundScaled 0)
        else Decimal.positional false ⟨d.roundScaled places, -places⟩)

end AdaptiveBatch.FloatText
