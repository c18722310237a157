import AdaptiveBatch.Numeric.Dyadic

/-! # Machine words

Quantities that cross the boundary of a job (byte counts, parallelisms, timeouts) are held as
natural numbers, and the arithmetic on them says what happens at the end of their range:

* **`Overflow`** — the four ways in which a computation leaves its range and is abandoned;
* **`Checked`** — the outcome of a computation that may be abandoned;
* **`Word.add`**, **`Word.mul`**, **`Word.sum`** — 64-bit arithmetic that is abandoned on overflow;
* **`total`**, **`largest`** — the sum and the maximum of a list of counts, without a bound;
* **`Word.saturate`**, **`HalfWord.saturate`** — the nearest 64-bit or 32-bit count;
* **`Word.toFloat`**, **`Word.ofFloat`** — counts as floating-point numbers and back, rounded. -/

namespace AdaptiveBatch

/-- Why a computation on bounded quantities was abandoned. -/
inductive Overflow
  /-- A sum does not fit into 64 bits. -/
  | add
  /-- A product does not fit into 64 bits. -/
  | multiply
  /-- A point in time lies beyond the end of the clock. -/
  | clock
  /-- A timer is to go off again and again without any time in between. -/
  | period
deriving DecidableEq, Repr

/-- The text reported for an abandoned computation. -/
def Overflow.message : Overflow → String
  | .add => "attempt to add with overflow"
  | .multiply => "attempt to multiply with overflow"
  | .clock => "overflow when adding duration to instant"
  | .period => "`period` must be non-zero."

/-- The outcome of a computation that is abandoned when a quantity leaves its range. -/
abbrev Checked := Except Overflow

/-- The sum of a list of counts. -/
def total (counts : List Nat) : Nat := counts.foldr (· + ·) 0

@[simp] theorem total_nil : total [] = 0 := rfl

/-- The `total` of `n :: counts` is `n` plus that of `counts`. -/
@[simp] theorem total_cons (n : Nat) (counts : List Nat) : total (n :: counts) = n + total counts :=
  rfl

/-- The `total` does not depend on the order of the counts. -/
theorem total_perm {counts counts' : List Nat} (h : counts.Perm counts') :
    total counts = total counts' :=
  h.sum_nat

/-- The largest of a list of counts; zero for an empty list. -/
def largest (counts : List Nat) : Nat := counts.foldr max 0

@[simp] theorem largest_nil : largest [] = 0 := rfl

/-- The `largest` of `n :: counts` is the larger of `n` and that of `counts`. -/
@[simp] theorem largest_cons (n : Nat) (counts : List Nat) :
    largest (n :: counts) = max n (largest counts) :=
  rfl

/-- The count `largest counts` is the least upper bound of the list: it is at most `n` iff every
count is. -/
theorem largest_le_iff {counts : List Nat} {n : Nat} :
    largest counts ≤ n ↔ ∀ c ∈ counts, c ≤ n := by
  induction counts with
  | nil => simp
  | cons c rest ih =>
    rw [largest_cons, Nat.max_le, ih, List.forall_mem_cons]

/-- No count of the list exceeds `largest counts`. -/
theorem le_largest {counts : List Nat} {n : Nat} (h : n ∈ counts) : n ≤ largest counts :=
  largest_le_iff.1 (Nat.le_refl _) n h

/-- The `largest` count does not depend on the order of the counts. -/
theorem largest_perm {counts counts' : List Nat} (h : counts.Perm counts') :
    largest counts = largest counts' :=
  Nat.le_antisymm
    (largest_le_iff.2 fun _ hmem => le_largest (h.mem_iff.1 hmem))
    (largest_le_iff.2 fun _ hmem => le_largest (h.mem_iff.2 hmem))

/-! ## 64-bit counts -/

namespace Word

/-- The number of 64-bit counts; every one of them is smaller. -/
def limit : Nat := 18446744073709551616

/-- The largest 64-bit count. -/
def max : Nat := limit - 1

/-- The 64-bit count nearest to `n`. -/
def saturate (n : Nat) : Nat := min n max

/-- The sum of two counts, abandoned when it does not fit. -/
def add (a b : Nat) : Checked Nat :=
  if a + b < limit then .ok (a + b) else .error .add

/-- The product of two counts, abandoned when it does not fit. -/
def mul (a b : Nat) : Checked Nat :=
  if a * b < limit then .ok (a * b) else .error .multiply

/-- The sum of a list of counts from left to right, abandoned as soon as it does not fit. -/
def sum (counts : List Nat) : Checked Nat :=
  counts.foldlM add 0

/-- The floating-point number nearest to a 64-bit count. -/
def toFloat (n : Nat) : Float := n.toUInt64.toFloat

/-- The 64-bit count nearest to a floating-point number, ties away from zero. What is negative or
not a number counts as zero. -/
def ofFloat (x : Float) : Nat :=
  match Dyadic.ofFloat? x with
  | none => if 0 < x then max else 0
  | some d =>
    if d.negative then 0 else saturate (roundHalfUp (d.scaledFraction 0).1 (d.scaledFraction 0).2)

/-- Saturating at the largest 64-bit count, `max = limit - 1`, keeps `≤`. -/
theorem saturate_mono {m n : Nat} (h : m ≤ n) : saturate m ≤ saturate n := by
  unfold saturate; omega

/-- Adding `counts` one after the other to `start` succeeds iff the whole sum `start + total counts`
stays below `limit`, since no partial sum exceeds it. -/
theorem foldlM_add (counts : List Nat) (start : Nat) (h : start < limit) :
    counts.foldlM add start =
      if start + total counts < limit then .ok (start + total counts) else .error .add := by
  induction counts generalizing start with
  | nil =>
    rw [List.foldlM_nil, total_nil, Nat.add_zero, if_pos h]
    rfl
  | cons n rest ih =>
    rw [List.foldlM_cons, total_cons]
    by_cases hn : start + n < limit
    · have hadd : add start n = .ok (start + n) := if_pos hn
      rw [hadd]
      exact (ih _ hn).trans (by rw [Nat.add_assoc])
    · have hadd : add start n = .error .add := if_neg hn
      rw [hadd, if_neg (by omega)]
      rfl

/-- A sum is abandoned exactly when `total counts` does not fit, that is, is not below `limit`. -/
theorem sum_eq (counts : List Nat) :
    sum counts = if total counts < limit then .ok (total counts) else .error .add := by
  have h := foldlM_add counts 0 (by decide)
  rw [Nat.zero_add] at h
  exact h

end Word

/-! ## 32-bit counts -/

namespace HalfWord

/-- The number of 32-bit counts; every one of them is smaller. -/
def limit : Nat := 4294967296

/-- The largest 32-bit count. -/
def max : Nat := limit - 1

/-- The 32-bit count nearest to `n`. -/
def saturate (n : Nat) : Nat := min n max

/-- Saturating at the largest 32-bit count, `max = limit - 1`, keeps `≤`. -/
theorem saturate_mono {m n : Nat} (h : m ≤ n) : saturate m ≤ saturate n := by
  unfold saturate; omega

end HalfWord

end AdaptiveBatch
