import AdaptiveBatch.Proofs.Config.RoundTrip
import AdaptiveBatch.Proofs.Text.Spelling
import Mathlib.Data.List.ReduceOption

/-! # What written quantities stand for

A duration is spelt as a count of units from milliseconds to hours, a size as a count of units from
bytes to terabytes. Reading takes exactly these texts and gives the product of count and unit. When
the product is too large, a size is refused as unreadable, but a duration in minutes or hours is
not: its seconds are multiplied before they are looked at, and the computation is given up.

* **`Duration.Denotes`**, **`ByteSize.Denotes`** — what a text stands for;
* **`Duration.parse?_of_denotes`**, **`Duration.parse?_of_not_denotes`** — what is read;
* **`Config.GivenUpFor`** — resolving settings is given up for one of some texts only;
* **`Config.quantities_read`** — what is read, refused and given up. -/

namespace AdaptiveBatch

/-! ## Durations -/

namespace Duration

/-- The nanoseconds of a unit of time. -/
def unitNanos? : String → Option Nat
  | "ms" => some nanosPerMilli
  | "" | "s" => some nanosPerSecond
  | "m" | "min" => some (60 * nanosPerSecond)
  | "h" => some (3600 * nanosPerSecond)
  | _ => none

/-- A text spells a 64-bit count of a unit of time, and this is the number of nanoseconds. -/
def Denotes (s : String) (nanos : Nat) : Prop :=
  ∃ value unit size, Text.Spells s value unit ∧ value < Word.limit ∧
    unitNanos? unit = some size ∧ nanos = value * size

variable {s unit : String} {value size nanos : Nat}

/-- The units of time that `unitNanos?` knows are spelled in lower-case letters. -/
theorem isLower_of_unitNanos? (h : unitNanos? unit = some size) :
    ∀ c ∈ unit.toList, c.isLower = true := by
  unfold unitNanos? at h
  split at h <;> simp_all

/-- A duration of so many nanoseconds, if there is one. -/
def ofProduct (nanos : Nat) : Checked (Option Duration) :=
  if h : nanos < limit then .ok (some ⟨nanos, h⟩) else .error .multiply

/-- The nanoseconds of a duration make up that duration: `ofProduct d.nanos` gives `d` back. -/
theorem ofProduct_nanos (d : Duration) : ofProduct d.nanos = .ok (some d) := dif_pos d.nanos_lt

/-- Seconds that are multiplied in 64 bits are given up when the duration is too long, exactly as
`ofProduct` says. -/
theorem mul_map_ofSeconds (value factor : Nat) : (Word.mul value factor).map (some ∘ ofSeconds) =
    ofProduct (value * (factor * nanosPerSecond)) := by
  rw [← Nat.mul_assoc]
  -- the seconds fit into 64 bits exactly when the duration can be held
  unfold Word.mul
  split
  · next hlt =>
    rw [← ofSeconds_nanos hlt, ofProduct_nanos]
    rfl
  · next hlt =>
    have hle : ¬value * factor * nanosPerSecond < limit :=
      fun h => hlt (Nat.lt_of_mul_lt_mul_right h)
    rw [ofProduct, dif_neg hle]
    rfl

/-- A count of a unit of time is converted without loss, to `value * size` nanoseconds, or given up
when the duration is too long. -/
theorem ofUnits?_eq (hvalue : value < Word.limit) (hunit : unitNanos? unit = some size) :
    ofUnits? value unit = ofProduct (value * size) := by
  have hmillis : ofProduct (value * nanosPerMilli) = .ok (some (ofMillis value)) := by
    rw [← ofMillis_nanos hvalue, ofProduct_nanos]
  have hseconds : ofProduct (value * nanosPerSecond) = .ok (some (ofSeconds value)) := by
    rw [← ofSeconds_nanos hvalue, ofProduct_nanos]
  unfold unitNanos? at hunit
  split at hunit <;> cases hunit
  · exact hmillis.symm
  · exact hseconds.symm
  · exact hseconds.symm
  · exact mul_map_ofSeconds value 60
  · exact mul_map_ofSeconds value 60
  · exact mul_map_ofSeconds value 3600

/-- A unit that `unitNanos?` does not know makes the text unreadable, whatever the count. -/
theorem ofUnits?_of_unknown (hunit : unitNanos? unit = none) (value : Nat) :
    ofUnits? value unit = .ok none := by
  unfold unitNanos? at hunit
  unfold ofUnits?
  split at hunit <;> simp_all

/-- What a text stands for is read from it, unless it is too long: the reading is
`ofProduct nanos`. -/
theorem parse?_of_denotes (h : Denotes s nanos) : parse? s = ofProduct nanos := by
  obtain ⟨value, unit, size, hspells, hvalue, hunit, rfl⟩ := h
  obtain ⟨rfl, hcount⟩ := (Text.spells_iff (isLower_of_unitNanos? hunit)).1 ⟨hspells, hvalue⟩
  rw [parse?, hcount]
  exact ofUnits?_eq hvalue hunit

/-- A text that stands for no duration is unreadable: `parse? s` is `.ok none`. -/
theorem parse?_of_not_denotes (h : ∀ nanos, ¬Denotes s nanos) : parse? s = .ok none := by
  simp only [parse?]
  cases hcount : Text.count? (Text.Measure.ofString s).numeral with
  | none => rfl
  | some value =>
    cases hunit : unitNanos? (Text.Measure.ofString s).unit with
    | none => exact ofUnits?_of_unknown hunit value
    | some size =>
      obtain ⟨hspells, hvalue⟩ :=
        (Text.spells_iff (isLower_of_unitNanos? hunit)).2 ⟨rfl, hcount⟩
      exact absurd ⟨value, _, size, hspells, hvalue, hunit, rfl⟩ (h _)

/-- A text is read as `d` iff it stands for `d.nanos` nanoseconds. -/
theorem parse?_eq_some_iff {d : Duration} : parse? s = .ok (some d) ↔ Denotes s d.nanos := by
  constructor
  · intro h
    by_cases hdenotes : ∃ nanos, Denotes s nanos
    · obtain ⟨nanos, hnanos⟩ := hdenotes
      rw [parse?_of_denotes hnanos, ofProduct] at h
      split at h
      · cases h
        exact hnanos
      · cases h
    · rw [parse?_of_not_denotes (not_exists.1 hdenotes)] at h
      cases h
  · intro h
    rw [parse?_of_denotes h, ofProduct_nanos]

/-- Reading is given up for the texts that stand for a duration of `limit` nanoseconds or more, and
then with `.multiply`. -/
theorem parse?_eq_error_iff {e : Overflow} :
    parse? s = .error e ↔ e = .multiply ∧ ∃ nanos, Denotes s nanos ∧ limit ≤ nanos := by
  constructor
  · intro h
    by_cases hdenotes : ∃ nanos, Denotes s nanos
    · obtain ⟨nanos, hnanos⟩ := hdenotes
      rw [parse?_of_denotes hnanos, ofProduct] at h
      split at h
      · cases h
      · next hlong =>
        cases h
        exact ⟨rfl, nanos, hnanos, Nat.not_lt.1 hlong⟩
    · rw [parse?_of_not_denotes (not_exists.1 hdenotes)] at h
      cases h
  · rintro ⟨rfl, nanos, hnanos, hlong⟩
    rw [parse?_of_denotes hnanos, ofProduct, dif_neg (Nat.not_lt.2 hlong)]

end Duration

/-! ## Sizes -/

namespace ByteSize

/-- A text spells a 64-bit count of a unit of size, and this is the number of bytes. -/
def Denotes (s : String) (bytes : Nat) : Prop :=
  ∃ value unit size, Text.Spells s value unit ∧ value < Word.limit ∧
    unitSize? unit = some size ∧ bytes = value * size

variable {s unit : String} {size bytes : Nat}

/-- The units of size that `unitSize?` knows are spelled in lower-case letters. -/
theorem isLower_of_unitSize? (h : unitSize? unit = some size) :
    ∀ c ∈ unit.toList, c.isLower = true := by
  unfold unitSize? at h
  split at h <;> simp_all

/-- A text is read as `bytes` iff it stands for that size and the size is below `Word.limit`. -/
theorem parse?_eq_some_iff : parse? s = some bytes ↔ Denotes s bytes ∧ bytes < Word.limit := by
  simp only [parse?, bind, Option.bind_eq_some_iff]
  constructor
  · rintro ⟨value, hcount, size, hunit, h⟩
    split at h
    · next hlt =>
      cases h
      obtain ⟨hspells, hvalue⟩ :=
        (Text.spells_iff (isLower_of_unitSize? hunit)).2 ⟨rfl, hcount⟩
      exact ⟨⟨value, _, size, hspells, hvalue, hunit, rfl⟩, hlt⟩
    · cases h
  · rintro ⟨⟨value, unit, size, hspells, hvalue, hunit, rfl⟩, hlt⟩
    obtain ⟨rfl, hcount⟩ := (Text.spells_iff (isLower_of_unitSize? hunit)).1 ⟨hspells, hvalue⟩
    exact ⟨value, hcount, size, hunit, if_pos hlt⟩

end ByteSize

/-! ## Settings -/

/-- The texts of the options that are durations or timeouts. -/
def Options.durations (o : Options) : List String :=
  [o.blockSlowNodeDuration, o.checkInterval, o.baselineLowerBound, o.resourceWaitTimeout,
    o.resourceStabilizationTimeout, o.scalingIntervalMin, o.scalingIntervalMax, o.slotIdleTimeout,
    o.slotRequestTimeout].reduceOption

namespace Config

/-- A resolution that is given up is given up for one of these texts, as reading it as a duration
is. -/
def GivenUpFor {α : Type} (texts : List String) (x : Resolved α) : Prop :=
  ∀ e, x.run = .error e → ∃ s ∈ texts, Duration.parse? s = .error e

section GivenUpFor

variable {α β : Type} {texts : List String} {x : Resolved α}

/-- A value that is there already is not given up for any text. -/
theorem givenUpFor_pure (a : α) : GivenUpFor texts (pure a : Resolved α) := by
  intro e h
  cases h

/-- One step after the other, `x >>= f`, is given up for the texts that one of the two is given up
for. -/
theorem GivenUpFor.bind {f : α → Resolved β} (hx : GivenUpFor texts x)
    (hf : ∀ a, GivenUpFor texts (f a)) : GivenUpFor texts (x >>= f) := by
  intro e h
  -- a refusal is a result: nothing after it is read, and nothing is given up
  rcases x with e' | refusal | a
  · obtain rfl : e' = e := Except.error.inj h
    exact hx e' rfl
  · cases h
  · exact hf a e h

variable {key : String} {parse : String → Checked (Option α)} {standard : α}
  {option : Option String}

/-- A textual option is given up for its own text, if that is where its reader `parse` is given
up. -/
theorem givenUpFor_resolveText
    (hparse : ∀ s ∈ option, ∀ e, parse s = .error e → s ∈ texts ∧ Duration.parse? s = .error e) :
    GivenUpFor texts (resolveText key parse standard option) := by
  intro e h
  cases option with
  | none => cases h
  | some s =>
    simp only [resolveText] at h
    cases hs : parse s with
    | error e' =>
      rw [hs] at h
      cases h
      exact ⟨s, hparse s rfl e hs⟩
    | ok read =>
      rw [hs] at h
      cases read <;> cases h

end GivenUpFor

/-- What is given up under a mapping `x.map f` is given up in `x`. -/
theorem eq_error_of_map {α β : Type} {x : Checked (Option α)} {f : Option α → β} {e : Overflow}
    (h : x.map f = .error e) : x = .error e := by
  cases x with
  | error e' => exact congrArg Except.error (Except.error.inj h)
  | ok v => cases h

/-- A timeout is given up only where its text is given up as a duration, with the same overflow
`e`. -/
theorem parse?_eq_error_of_timeout {s : String} {e : Overflow}
    (h : WaitTimeout.parse? s = .error e) : Duration.parse? s = .error e := by
  by_cases hsign : (Text.Measure.ofString s).numeral.head? = some '-'
  · simp [WaitTimeout.parse?, hsign] at h
  · rw [WaitTimeout.parse?_of_unsigned hsign] at h
    exact eq_error_of_map h

/-- Settings are resolved, or given up for the text of a duration, one of `o.durations`. -/
theorem givenUpFor_resolve (o : Options) : GivenUpFor o.durations (resolve o) := by
  have hmem : ∀ option ∈ [o.blockSlowNodeDuration, o.checkInterval, o.baselineLowerBound,
      o.resourceWaitTimeout, o.resourceStabilizationTimeout, o.scalingIntervalMin,
      o.scalingIntervalMax, o.slotIdleTimeout, o.slotRequestTimeout],
      ∀ s ∈ option, s ∈ o.durations := by
    rintro _ hoption s rfl
    exact List.reduceOption_mem_iff.2 hoption
  have hduration : ∀ (key : String) (standard : Duration) (option : Option String),
      (∀ s ∈ option, s ∈ o.durations) →
        GivenUpFor o.durations (resolveText key Duration.parse? standard option) :=
    fun _ _ _ h => givenUpFor_resolveText fun s hs e he => ⟨h s hs, he⟩
  have hauto : GivenUpFor o.durations (resolveAuto o standard.auto) :=
    .bind (givenUpFor_resolveText fun s _ e he => nomatch he) fun _ => givenUpFor_pure _
  have hspeculative : GivenUpFor o.durations (resolveSpeculative o standard.speculative) :=
    .bind (hduration _ _ _ (hmem _ (by simp))) fun _ => givenUpFor_pure _
  have hdetector : GivenUpFor o.durations (resolveDetector o standard.detector) :=
    .bind (hduration _ _ _ (hmem _ (by simp))) fun _ =>
      .bind (hduration _ _ _ (hmem _ (by simp))) fun _ => givenUpFor_pure _
  have hslots : GivenUpFor o.durations (resolveSlots o standard.slots) :=
    .bind (hduration _ _ _ (hmem _ (by simp))) fun _ =>
      .bind (hduration _ _ _ (hmem _ (by simp))) fun _ => givenUpFor_pure _
  have hrescale : GivenUpFor o.durations (resolveRescale o standard.rescale) := by
    refine .bind (givenUpFor_resolveText fun s hs e he => ?_) fun _ =>
      .bind (hduration _ _ _ (hmem _ (by simp))) fun _ =>
        .bind (hduration _ _ _ (hmem _ (by simp))) fun _ =>
          .bind (givenUpFor_resolveText fun s hs e he => ?_) fun _ => givenUpFor_pure _
    · exact ⟨hmem o.resourceWaitTimeout (by simp) s hs, parse?_eq_error_of_timeout he⟩
    · exact ⟨hmem o.scalingIntervalMax (by simp) s hs, eq_error_of_map he⟩
  exact .bind hauto fun _ => .bind hspeculative fun _ => .bind hdetector fun _ =>
    .bind hrescale fun _ => .bind hslots fun _ => givenUpFor_pure _

/-- The checks of `validate` give nothing up: reading settings is given up for the text of a
duration only. -/
theorem givenUpFor_ofOptions (o : Options) : GivenUpFor o.durations (ofOptions o) := by
  refine (givenUpFor_resolve o).bind fun c => ?_
  cases c.validate <;> exact fun e h => nomatch h

/-- **Quantities are read exactly.** A text is read as a duration when it spells a 64-bit count of
milliseconds, seconds, minutes or hours that a duration can hold, and as a size when it spells a
count of bytes up to terabytes that fits into 64 bits; what is read is the product of count and unit
(`Denotes`). Every other text is unreadable, except one that spells `Duration.limit` nanoseconds or
more: reading it is given up. Resolving settings with `ofOptions` is given up for nothing else. -/
theorem quantities_read (s : String) (o : Options) :
    (∀ d, Duration.parse? s = .ok (some d) ↔ Duration.Denotes s d.nanos) ∧
    (∀ e, Duration.parse? s = .error e ↔
      e = .multiply ∧ ∃ nanos, Duration.Denotes s nanos ∧ Duration.limit ≤ nanos) ∧
    (Duration.parse? s = .ok none ↔ ¬∃ nanos, Duration.Denotes s nanos) ∧
    (∀ bytes, ByteSize.parse? s = some bytes ↔ ByteSize.Denotes s bytes ∧ bytes < Word.limit) ∧
    (∀ e, (ofOptions o).run = .error e → e = .multiply ∧
      ∃ text ∈ o.durations, ∃ nanos, Duration.Denotes text nanos ∧ Duration.limit ≤ nanos) := by
  refine ⟨fun d => Duration.parse?_eq_some_iff, fun e => Duration.parse?_eq_error_iff, ?_,
    fun bytes => ByteSize.parse?_eq_some_iff, fun e h => ?_⟩
  · refine ⟨?_, fun h => Duration.parse?_of_not_denotes (not_exists.1 h)⟩
    rintro h ⟨nanos, hnanos⟩
    rw [Duration.parse?_of_denotes hnanos, Duration.ofProduct] at h
    split at h <;> cases h
  · obtain ⟨text, htext, herror⟩ := givenUpFor_ofOptions o e h
    obtain ⟨rfl, hlong⟩ := Duration.parse?_eq_error_iff.1 herror
    exact ⟨rfl, text, htext, hlong⟩

/-- The fewest minutes that make up `2 ^ 64` seconds or more, as a timeout. -/
def overlongOptions : Options := { resourceStabilizationTimeout := some "307445734561825861m" }

/-- Reading `"307445734561825861m"` is given up with `.multiply`, and then the settings are given up
as well. -/
theorem overlong_minutes_given_up :
    Duration.parse? "307445734561825861m" = .error .multiply ∧
      (ofOptions overlongOptions).run = .error .multiply := by
  constructor
  · rfl
  · rfl

/-- The settings spell `"307445734561825861m"`, which is given up; one minute less is read, in any
case and with blanks around. -/
theorem quantities_read_sample :
    Duration.Denotes " 307445734561825860 MIN " (307445734561825860 * 60000000000) ∧
      (ofOptions overlongOptions).run = .error .multiply ∧
      ∃ text ∈ overlongOptions.durations, ∃ nanos,
        Duration.Denotes text nanos ∧ Duration.limit ≤ nanos := by
  obtain ⟨hread, -, -, -, hgivenUp⟩ :=
    quantities_read " 307445734561825860 MIN " overlongOptions
  have hlast : Duration.parse? " 307445734561825860 MIN " =
      .ok (some ⟨307445734561825860 * 60000000000, by decide⟩) := by
    decide +kernel
  have herror : (ofOptions overlongOptions).run = .error .multiply := rfl
  exact ⟨(hread _).1 hlast, herror, (hgivenUp _ herror).2⟩

end Config

end AdaptiveBatch
