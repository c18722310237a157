import AdaptiveBatch.Numeric.Word
import AdaptiveBatch.Numeric.Dyadic

/-! # Durations and points in time

A **`Duration`** is a whole number of nanoseconds below `2 ^ 64` seconds, and an **`Instant`** is a
point on a clock whose seconds are a signed 64-bit number. Instants are counted from an origin at
which the clock has already been running. Durations are capped at the longest one; the clock is not:
adding a duration to an instant is abandoned when the sum lies beyond its end.

* **`Duration.scale`** multiplies by a floating-point factor and rounds to the nearest nanosecond;
* **`Instant.add`** is the checked sum, **`Instant.since`** the time passed, never negative. -/

namespace AdaptiveBatch

/-- The nanoseconds of a second. -/
def nanosPerSecond : Nat := 1000000000

/-- The nanoseconds of a millisecond. -/
def nanosPerMilli : Nat := 1000000

/-- The number of nanoseconds in `2 ^ 64` seconds; every duration is shorter. -/
def Duration.limit : Nat := Word.limit * nanosPerSecond

/-- The number of seconds for which the clock has been running at the origin: a day. -/
def Instant.lead : Nat := 86400

/-- The number of nanoseconds from the origin to the end of the clock after `2 ^ 63` seconds; every
point of the clock comes before it. -/
def Instant.limit : Nat := (Word.limit / 2 - Instant.lead) * nanosPerSecond

/-- A span of time in nanoseconds, shorter than `2 ^ 64` seconds. -/
@[ext] structure Duration where
  /-- The length in nanoseconds. -/
  nanos : Nat
  /-- The whole seconds are a 64-bit count. -/
  nanos_lt : nanos < Duration.limit := by decide
deriving DecidableEq, Repr

namespace Duration

/-- The longest duration. -/
def max : Duration := ⟨limit - 1, by decide⟩

/-- The duration of `n` nanoseconds, capped at the longest one. -/
def ofNanos (n : Nat) : Duration :=
  ⟨min n max.nanos, Nat.lt_of_le_of_lt (Nat.min_le_right n max.nanos) max.nanos_lt⟩

/-- The duration of `n` milliseconds, capped at the longest one. -/
def ofMillis (n : Nat) : Duration := ofNanos (n * nanosPerMilli)

/-- The duration of `n` seconds, capped at the longest one. -/
def ofSeconds (n : Nat) : Duration := ofNanos (n * nanosPerSecond)

/-- The empty span of time. -/
def zero : Duration := ⟨0, by decide⟩

instance : Inhabited Duration := ⟨zero⟩

instance : LE Duration := ⟨fun a b => a.nanos ≤ b.nanos⟩

instance : LT Duration := ⟨fun a b => a.nanos < b.nanos⟩

instance (a b : Duration) : Decidable (a ≤ b) := inferInstanceAs (Decidable (a.nanos ≤ b.nanos))

instance (a b : Duration) : Decidable (a < b) := inferInstanceAs (Decidable (a.nanos < b.nanos))

instance : Max Duration := ⟨fun a b => if a ≤ b then b else a⟩

instance : Min Duration := ⟨fun a b => if a ≤ b then a else b⟩

/-- Durations are ordered by their `nanos`. -/
theorem le_iff {a b : Duration} : a ≤ b ↔ a.nanos ≤ b.nanos := Iff.rfl

/-- Durations are strictly ordered by their `nanos`. -/
theorem lt_iff {a b : Duration} : a < b ↔ a.nanos < b.nanos := Iff.rfl

/-- A number of nanoseconds below `limit` is kept by `ofNanos` as it is. -/
theorem ofNanos_nanos_of_lt {n : Nat} (h : n < limit) : (ofNanos n).nanos = n := by
  simp only [ofNanos, max]; omega

/-- The whole milliseconds of a duration. -/
def millis (d : Duration) : Nat := d.nanos / nanosPerMilli

/-- The whole seconds of a duration. -/
def seconds (d : Duration) : Nat := d.nanos / nanosPerSecond

/-- The nanoseconds beyond the whole seconds. -/
def subsecond (d : Duration) : Nat := d.nanos % nanosPerSecond

/-- The duration in seconds as a floating-point number: whole seconds and fraction are converted
separately and added. -/
def toFloat (d : Duration) : Float :=
  Word.toFloat d.seconds + Word.toFloat d.subsecond / 1e9

/-- The duration nearest to `seconds`, ties to the even nanosecond, or `none` when that number is
negative, not a number, or `2 ^ 64` or more. -/
def ofFloat? (seconds : Float) : Option Duration :=
  if seconds < 0 then none
  else match Dyadic.ofFloat? seconds with
    | none => none
    | some d =>
      let nanos := d.roundScaled 9
      if h : nanos < limit then some ⟨nanos, h⟩ else none

/-- The duration times a factor, capped at the longest one. A factor that is not a positive number
yields the empty duration. -/
def scale (d : Duration) (factor : Float) : Duration :=
  if d = zero || factor.isNaN || factor ≤ 0 then zero
  else (ofFloat? (d.toFloat * factor)).getD max

end Duration

/-- A point in time, in nanoseconds after the origin. -/
@[ext] structure Instant where
  /-- The nanoseconds after the origin. -/
  nanos : Nat
  /-- The point lies before the end of the clock. -/
  nanos_lt : nanos < Instant.limit := by decide
deriving DecidableEq, Repr

namespace Instant

/-- The origin of time. -/
def origin : Instant := ⟨0, by decide⟩

instance : Inhabited Instant := ⟨origin⟩

instance : LE Instant := ⟨fun a b => a.nanos ≤ b.nanos⟩

instance : LT Instant := ⟨fun a b => a.nanos < b.nanos⟩

instance (a b : Instant) : Decidable (a ≤ b) := inferInstanceAs (Decidable (a.nanos ≤ b.nanos))

instance (a b : Instant) : Decidable (a < b) := inferInstanceAs (Decidable (a.nanos < b.nanos))

instance : Max Instant := ⟨fun a b => if a ≤ b then b else a⟩

instance : Min Instant := ⟨fun a b => if a ≤ b then a else b⟩

/-- Points in time are ordered by their `nanos`. -/
theorem le_iff {a b : Instant} : a ≤ b ↔ a.nanos ≤ b.nanos := Iff.rfl

/-- Points in time are strictly ordered by their `nanos`. -/
theorem lt_iff {a b : Instant} : a < b ↔ a.nanos < b.nanos := Iff.rfl

/-- The last point of the clock. -/
def last : Instant := ⟨limit - 1, by decide⟩

/-- The point `n` nanoseconds after the origin, at most the last one. -/
def ofNanos (n : Nat) : Instant :=
  ⟨min n last.nanos, Nat.lt_of_le_of_lt (Nat.min_le_right n last.nanos) last.nanos_lt⟩

/-- The point `n` milliseconds after the origin. -/
def ofMillis (n : Nat) : Instant := ofNanos (n * nanosPerMilli)

/-- The whole milliseconds after the origin. -/
def millis (t : Instant) : Nat := t.nanos / nanosPerMilli

/-- The instant `d` after `t`, or `none` beyond the end of the clock. -/
def add? (t : Instant) (d : Duration) : Option Instant :=
  if h : t.nanos + d.nanos < limit then some ⟨t.nanos + d.nanos, h⟩ else none

/-- The instant `d` after `t`, abandoned beyond the end of the clock. -/
def add (t : Instant) (d : Duration) : Checked Instant :=
  match t.add? d with
  | some u => .ok u
  | none => .error .clock

/-- The time passed from `earlier` to `t`; nothing has passed when `earlier` is later. -/
def since (t earlier : Instant) : Duration :=
  ⟨t.nanos - earlier.nanos,
    Nat.lt_of_le_of_lt (Nat.sub_le ..) (Nat.lt_trans t.nanos_lt (by decide))⟩

/-- A duration can be added to `t` to give `u` iff `u` is that far from `t`: as `u` is on the clock,
its `nanos` are in range. -/
theorem add_eq_ok_iff {t u : Instant} {d : Duration} :
    t.add d = .ok u ↔ u.nanos = t.nanos + d.nanos := by
  simp only [add, add?]
  by_cases h : t.nanos + d.nanos < limit
  · rw [dif_pos h]
    simp only [Except.ok.injEq, Instant.ext_iff]
    exact eq_comm
  · rw [dif_neg h]
    simp only [reduceCtorEq, false_iff]
    have := u.nanos_lt
    omega

end Instant

end AdaptiveBatch
