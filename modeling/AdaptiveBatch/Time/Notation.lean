import AdaptiveBatch.Text.Measure
import AdaptiveBatch.Time.Duration

/-! # Written durations

Configuration text gives a duration as a number and a unit: `500ms`, `5s`, `1m` or `1min`, `2h`, or
bare seconds.

* **`Duration.parse?`** reads that form, **`Duration.format`** writes the largest unit that
  represents the duration exactly;
* **`WaitTimeout`** is a timeout that may never expire, written as a negative number;
* **`Duration.describe`** is the decimal form used in error texts, `300.5s` or `20ms`. -/

namespace AdaptiveBatch

namespace Duration

/-- The duration of `value` units; `none` for an unknown unit. Minutes and hours are converted to
seconds in 64-bit arithmetic, which is abandoned when it overflows. -/
def ofUnits? (value : Nat) : String → Checked (Option Duration)
  | "ms" => .ok (some (ofMillis value))
  | "" | "s" => .ok (some (ofSeconds value))
  | "m" | "min" => (Word.mul value 60).map (some ∘ ofSeconds)
  | "h" => (Word.mul value 3600).map (some ∘ ofSeconds)
  | _ => .ok none

/-- Reads a written duration; a sign, a fraction or an unknown unit makes it unreadable. -/
def parse? (s : String) : Checked (Option Duration) :=
  let m := Text.Measure.ofString s
  match Text.count? m.numeral with
  | none => .ok none
  | some value => ofUnits? value m.unit

/-- Writes a duration in the largest unit that represents its milliseconds exactly. -/
def format (d : Duration) : String :=
  if d.millis % 1000 ≠ 0 then s!"{d.millis}ms"
  else if d.seconds ≠ 0 ∧ d.seconds % 3600 = 0 then s!"{d.seconds / 3600}h"
  else if d.seconds ≠ 0 ∧ d.seconds % 60 = 0 then s!"{d.seconds / 60}m"
  else s!"{d.seconds}s"

/-- The digits of `fraction` padded to `width` places, without the zeros at the end. -/
def fractionDigits (fraction width : Nat) : List Char :=
  let digits := Nat.toDigits 10 fraction
  ((List.replicate (width - digits.length) '0' ++ digits).reverse.dropWhile (· == '0')).reverse

/-- A whole number of units and a fraction of one, the latter omitted when it is zero. -/
def describeIn (unit : String) (whole fraction width : Nat) : String :=
  if fraction = 0 then s!"{whole}{unit}"
  else s!"{whole}.{String.ofList (fractionDigits fraction width)}{unit}"

/-- A duration in decimal notation, in seconds, milliseconds, microseconds or nanoseconds: the
largest unit of which it holds at least one. -/
def describe (d : Duration) : String :=
  if 0 < d.seconds then describeIn "s" d.seconds d.subsecond 9
  else if nanosPerMilli ≤ d.nanos then
    describeIn "ms" (d.nanos / nanosPerMilli) (d.nanos % nanosPerMilli) 6
  else if 1000 ≤ d.nanos then describeIn "µs" (d.nanos / 1000) (d.nanos % 1000) 3
  else s!"{d.nanos}ns"

end Duration

/-! ## Timeouts -/

/-- How long to wait for resources. -/
inductive WaitTimeout
  /-- Without end. -/
  | forever
  /-- Until this much time has passed. -/
  | after (d : Duration)
deriving DecidableEq, Repr

namespace WaitTimeout

/-- The bounded duration, if there is one. -/
def duration? : WaitTimeout → Option Duration
  | .forever => none
  | .after d => some d

/-- Reads a written timeout. Any negative whole number stands for a timeout that never expires,
whatever its unit. -/
def parse? (s : String) : Checked (Option WaitTimeout) :=
  let numeral := (Text.Measure.ofString s).numeral
  if numeral.head? = some '-' then
    .ok ((Text.count? (numeral.dropWhile (· == '-'))).map fun _ => .forever)
  else (Duration.parse? s).map (Option.map .after)

/-- Writes a timeout so that it can be read back. -/
def format : WaitTimeout → String
  | .forever => "-1"
  | .after d => d.format

end WaitTimeout

end AdaptiveBatch
