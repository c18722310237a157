import AdaptiveBatch.Proofs.Text.Measure
import AdaptiveBatch.Time.Notation
import AdaptiveBatch.Numeric.ByteSize

/-! # Written durations, timeouts and sizes are read back

A quantity is written in the largest unit that represents it exactly, so that reading it multiplies
back what writing divided out. Two things could be lost on the way: the part of a duration below a
millisecond, which no unit expresses, and a count that does not fit into 64 bits. Neither occurs in
a duration that was itself read from a text (`Duration.Legible`).

* **`Duration.legible_of_parse?`** — what is read is legible;
* **`Duration.parse?_format`**, **`WaitTimeout.parse?_format`**, **`ByteSize.parse?_format`** —
  what is written is read back. -/

namespace AdaptiveBatch

/-- What is read under a mapping `f` is the image under `f` of what is read. -/
theorem Checked.exists_of_map {α β : Type} {x : Checked (Option α)} {f : α → β} {b : β}
    (h : x.map (Option.map f) = .ok (some b)) : ∃ a, x = .ok (some a) ∧ f a = b := by
  rcases x with e | _ | a
  · cases h
  · cases h
  · cases h
    exact ⟨a, rfl, rfl⟩

namespace Duration

/-- A duration that a text can give: whole milliseconds, whose number is a 64-bit count unless they
make up whole seconds. -/
def Legible (d : Duration) : Prop :=
  d.nanos % nanosPerMilli = 0 ∧ (d.millis % 1000 = 0 ∨ d.millis < Word.limit)

instance (d : Duration) : Decidable d.Legible := inferInstanceAs (Decidable (_ ∧ _))

/-! ## What is read -/

/-- No count of seconds that fits into 64 bits is capped: `ofSeconds n` lasts
`n * nanosPerSecond`. -/
theorem ofSeconds_nanos {n : Nat} (h : n < Word.limit) :
    (ofSeconds n).nanos = n * nanosPerSecond :=
  ofNanos_nanos_of_lt (Nat.mul_lt_mul_of_pos_right h (by decide))

/-- No count of milliseconds that fits into 64 bits is capped: `ofMillis n` lasts
`n * nanosPerMilli`. -/
theorem ofMillis_nanos {n : Nat} (h : n < Word.limit) : (ofMillis n).nanos = n * nanosPerMilli := by
  apply ofNanos_nanos_of_lt
  simp only [limit, nanosPerMilli, nanosPerSecond]
  omega

/-- A 64-bit count of seconds makes a `Legible` duration. -/
theorem legible_ofSeconds {n : Nat} (h : n < Word.limit) : (ofSeconds n).Legible := by
  have hnanos := ofSeconds_nanos h
  simp only [Legible, millis, hnanos, nanosPerMilli, nanosPerSecond]
  omega

/-- A 64-bit count of milliseconds makes a `Legible` duration. -/
theorem legible_ofMillis {n : Nat} (h : n < Word.limit) : (ofMillis n).Legible := by
  have hnanos := ofMillis_nanos h
  simp only [Legible, millis, hnanos, nanosPerMilli]
  omega

/-- A product `Word.mul n m` of counts of seconds is checked before it becomes a duration, so the
duration is `Legible`. -/
theorem legible_of_mul {n m : Nat} {d : Duration}
    (h : (Word.mul n m).map (some ∘ ofSeconds) = .ok (some d)) : d.Legible := by
  unfold Word.mul at h
  by_cases hlt : n * m < Word.limit
  · rw [if_pos hlt] at h
    cases h
    exact legible_ofSeconds hlt
  · rw [if_neg hlt] at h
    cases h

/-- Every duration read from a text is `Legible`. -/
theorem legible_of_parse? {s : String} {d : Duration} (h : parse? s = .ok (some d)) :
    d.Legible := by
  simp only [parse?] at h
  split at h
  · cases h
  · rename_i value hvalue
    have hlt : value < Word.limit := (Text.count?_eq_some_iff.1 hvalue).2.2.2
    unfold ofUnits? at h
    split at h
    · cases h
      exact legible_ofMillis hlt
    · cases h
      exact legible_ofSeconds hlt
    · cases h
      exact legible_ofSeconds hlt
    · exact legible_of_mul h
    · exact legible_of_mul h
    · exact legible_of_mul h
    · cases h

/-! ## What is written -/

/-- The whole seconds of a duration fit into 64 bits. -/
theorem seconds_lt (d : Duration) : d.seconds < Word.limit :=
  Nat.div_lt_of_lt_mul (Nat.mul_comm .. ▸ d.nanos_lt)

/-- Whole seconds are all there is to a `Legible` duration whose milliseconds are a multiple of
`1000`. -/
theorem ofSeconds_seconds {d : Duration} (h : d.Legible) (hmillis : d.millis % 1000 = 0) :
    ofSeconds d.seconds = d := by
  obtain ⟨hwhole, -⟩ := h
  apply Duration.ext
  rw [ofSeconds_nanos d.seconds_lt]
  simp only [millis, seconds, nanosPerMilli, nanosPerSecond] at *
  omega

/-- A `Legible` duration is made up of its whole milliseconds, provided these fit into 64 bits. -/
theorem ofMillis_millis {d : Duration} (h : d.Legible) (hlt : d.millis < Word.limit) :
    ofMillis d.millis = d := by
  obtain ⟨hwhole, -⟩ := h
  apply Duration.ext
  rw [ofMillis_nanos hlt]
  simp only [millis, nanosPerMilli] at *
  omega

/-- A `Legible` duration is written as a 64-bit count `n` and a unit that together make it up:
`ofUnits? n unit` is the duration itself. -/
theorem format_eq {d : Duration} (h : d.Legible) :
    ∃ n unit, n < Word.limit ∧ (∀ c ∈ unit.toList, c.isLower = true) ∧
      d.format = toString n ++ unit ∧ ofUnits? n unit = .ok (some d) := by
  have hseconds := d.seconds_lt
  unfold format
  by_cases hmillis : d.millis % 1000 ≠ 0
  · rw [if_pos hmillis]
    have hlt : d.millis < Word.limit := h.2.resolve_left hmillis
    refine ⟨d.millis, "ms", hlt, by simp, rfl, ?_⟩
    show Except.ok (some (ofMillis d.millis)) = _
    rw [ofMillis_millis h hlt]
  rw [if_neg hmillis]
  have hwhole := ofSeconds_seconds h (Decidable.not_not.1 hmillis)
  -- in hours and minutes, the seconds come back as a product that fits
  have hback : ∀ k, d.seconds % k = 0 →
      (Word.mul (d.seconds / k) k).map (some ∘ ofSeconds) = .ok (some d) := by
    intro k hk
    have hprod : d.seconds / k * k = d.seconds := Nat.div_mul_cancel (Nat.dvd_of_mod_eq_zero hk)
    rw [Word.mul, hprod, if_pos hseconds, Except.map, Function.comp_apply, hwhole]
  by_cases hhours : d.seconds ≠ 0 ∧ d.seconds % 3600 = 0
  · rw [if_pos hhours]
    exact ⟨d.seconds / 3600, "h", by omega, by simp, rfl, hback 3600 hhours.2⟩
  rw [if_neg hhours]
  by_cases hminutes : d.seconds ≠ 0 ∧ d.seconds % 60 = 0
  · rw [if_pos hminutes]
    exact ⟨d.seconds / 60, "m", by omega, by simp, rfl, hback 60 hminutes.2⟩
  rw [if_neg hminutes]
  refine ⟨d.seconds, "s", hseconds, by simp, rfl, ?_⟩
  show Except.ok (some (ofSeconds d.seconds)) = _
  rw [hwhole]

/-- A `Legible` duration is read back from what is written for it, `d.format`. -/
theorem parse?_format {d : Duration} (h : d.Legible) : parse? d.format = .ok (some d) := by
  obtain ⟨n, unit, hlt, hunit, hformat, hunits⟩ := format_eq h
  simp only [parse?, hformat, Text.Measure.ofString_append n hunit, Text.count?_toDigits hlt,
    hunits]

end Duration

/-! ## Timeouts -/

namespace WaitTimeout

/-- A timeout that a text can give. -/
def Legible : WaitTimeout → Prop
  | .forever => True
  | .after d => d.Legible

/-- Without a minus sign `'-'` in front, a timeout is read as a duration. -/
theorem parse?_of_unsigned {s : String}
    (h : (Text.Measure.ofString s).numeral.head? ≠ some '-') :
    parse? s = (Duration.parse? s).map (Option.map .after) :=
  if_neg h

/-- Every timeout read from a text is `Legible`. -/
theorem legible_of_parse? {s : String} {w : WaitTimeout} (h : parse? s = .ok (some w)) :
    w.Legible := by
  cases w with
  | forever => trivial
  | after d =>
    by_cases hsign : (Text.Measure.ofString s).numeral.head? = some '-'
    · simp [parse?, hsign] at h
    · rw [parse?_of_unsigned hsign] at h
      obtain ⟨_, hread, hd⟩ := Checked.exists_of_map h
      cases hd
      exact Duration.legible_of_parse? hread

/-- A `Legible` timeout is read back from what is written for it, `w.format`. -/
theorem parse?_format {w : WaitTimeout} (h : w.Legible) : parse? w.format = .ok (some w) := by
  cases w with
  | forever => rfl
  | after d =>
    -- a bounded timeout starts with a digit, so it is not taken for a negative number
    have hsign : (Text.Measure.ofString d.format).numeral.head? ≠ some '-' := by
      obtain ⟨n, unit, -, hunit, hformat, -⟩ := Duration.format_eq h
      rw [hformat, Text.Measure.ofString_append n hunit]
      intro hhead
      have := Text.isDigit_of_mem_toDigits (List.mem_of_mem_head? hhead)
      exact absurd this (by decide)
    rw [format, parse?_of_unsigned hsign, Duration.parse?_format h]
    rfl

end WaitTimeout

/-! ## Sizes -/

namespace ByteSize

/-- A size that is read from a text is below `Word.limit`. -/
theorem lt_of_parse? {s : String} {n : Nat} (h : parse? s = some n) : n < Word.limit := by
  simp only [parse?, bind, Option.bind_eq_some_iff] at h
  obtain ⟨value, -, size, -, h⟩ := h
  by_cases hlt : value * size < Word.limit
  · rw [if_pos hlt] at h
    cases h
    exact hlt
  · rw [if_neg hlt] at h
    cases h

/-- A number `n` of units with the name of the unit behind it is read as their product
`n * size`. -/
theorem parse?_append {n size : Nat} {unit : String} (hunit : ∀ c ∈ unit.toList, c.isLower = true)
    (hsize : unitSize? unit = some size) (hn : n < Word.limit) (hlt : n * size < Word.limit) :
    parse? (toString n ++ unit) = some (n * size) := by
  simp only [parse?, Text.Measure.ofString_append n hunit, Text.count?_toDigits hn, hsize, bind,
    Option.bind_some, if_pos hlt]

/-- Every 64-bit size is read back from what `format` writes for it. -/
theorem parse?_format {bytes : Nat} (h : bytes < Word.limit) :
    parse? (format bytes) = some bytes := by
  have hback : ∀ (size : Nat) (unit : String), (∀ c ∈ unit.toList, c.isLower = true) →
      unitSize? unit = some size → bytes % size = 0 →
        parse? (toString (bytes / size) ++ unit) = some bytes := by
    intro size unit hunit hsize hmod
    have hprod : bytes / size * size = bytes := Nat.div_mul_cancel (Nat.dvd_of_mod_eq_zero hmod)
    have hread := parse?_append (n := bytes / size) hunit hsize
      (Nat.lt_of_le_of_lt (Nat.div_le_self ..) h) (hprod.symm ▸ h)
    rwa [hprod] at hread
  unfold format
  split
  · rename_i hdiv
    exact hback gigabyte "gb" (by simp) rfl hdiv.2
  split
  · rename_i hdiv
    exact hback megabyte "mb" (by simp) rfl hdiv.2
  split
  · rename_i hdiv
    exact hback kilobyte "kb" (by simp) rfl hdiv.2
  · have hread := hback 1 "b" (by simp) rfl (Nat.mod_one bytes)
    rwa [Nat.div_one] at hread

end ByteSize

end AdaptiveBatch
