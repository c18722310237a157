import AdaptiveBatch.Text.Measure
import Mathlib.Data.List.TakeWhile

/-! # Written numbers are read back

A quantity is written as decimal digits directly followed by a unit in lower-case letters. Neither
part holds a blank, and no letter can belong to a numeral, so the text splits where the digits end.

* **`count?_toDigits`** — the digits of a 64-bit count read as that count;
* **`Measure.ofString_append`** — the digits of a number and a unit split into exactly these. -/

namespace AdaptiveBatch.Text

/-! ## Digits -/

/-- The decimal digits of `n` have the value `n`. -/
theorem digitsValue_toDigits (n : Nat) : digitsValue (Nat.toDigits 10 n) = n :=
  Nat.ofDigitChars_ten_toDigits

/-- The decimal digits of a number are digits. -/
theorem isDigit_of_mem_toDigits {n : Nat} {c : Char} (h : c ∈ Nat.toDigits 10 n) :
    c.isDigit = true :=
  Nat.isDigit_of_mem_toDigits (by decide) (by decide) h

/-- The decimal digits of a 64-bit count are read back by `count?`. -/
theorem count?_toDigits {n : Nat} (h : n < Word.limit) : count? (Nat.toDigits 10 n) = some n := by
  have hdigits : (Nat.toDigits 10 n).all Char.isDigit = true :=
    List.all_eq_true.2 fun c hc => isDigit_of_mem_toDigits hc
  exact count?_eq_some_iff.2 ⟨Nat.toDigits_ne_nil, hdigits, digitsValue_toDigits n, h⟩

/-! ## The characters of a number and of a unit -/

/-- The digits by their code points, `48` to `57`. -/
theorem isDigit_iff {c : Char} : c.isDigit = true ↔ 48 ≤ c.toNat ∧ c.toNat ≤ 57 := by
  simp [Char.isDigit, UInt32.le_iff_toNat_le, ← Char.toNat_val]

/-- The lower-case letters by their code points, `97` to `122`. -/
theorem isLower_iff {c : Char} : c.isLower = true ↔ 97 ≤ c.toNat ∧ c.toNat ≤ 122 := by
  show (decide (97 ≤ c.val) && decide (c.val ≤ 122)) = true ↔ _
  simp [UInt32.le_iff_toNat_le, ← Char.toNat_val]

/-- No visible character of ASCII, `33` to `126`, is a blank. -/
theorem isBlank_eq_false {c : Char} (h : 33 ≤ c.toNat ∧ c.toNat ≤ 126) : isBlank c = false := by
  simp only [isBlank, Bool.or_eq_false_iff, Bool.and_eq_false_iff, decide_eq_false_iff_not,
    beq_eq_false_iff_ne]
  omega

/-- A digit may stand in a numeral. -/
theorem isNumeralChar_of_isDigit {c : Char} (h : c.isDigit = true) : isNumeralChar c = true := by
  simp [isNumeralChar, h]

/-- No lower-case letter belongs to a numeral, by `isNumeralChar`. -/
theorem isNumeralChar_of_isLower {c : Char} (h : c.isLower = true) : isNumeralChar c = false := by
  have hrange := isLower_iff.1 h
  have hdigit : c.isDigit = false := by
    rw [Bool.eq_false_iff, ne_eq, isDigit_iff]
    omega
  have hsign : c ≠ '-' := by rintro rfl; exact absurd hrange (by decide)
  have hpoint : c ≠ '.' := by rintro rfl; exact absurd hrange (by decide)
  simp [isNumeralChar, hdigit, hsign, hpoint]

/-- A lower-case letter is left as it is by `toLower`. -/
theorem toLower_of_isLower {c : Char} (h : c.isLower = true) : c.toLower = c := by
  have hrange := isLower_iff.1 h
  refine dif_neg fun hupper => ?_
  have hle : c.toNat ≤ 90 := UInt32.le_iff_toNat_le.1 hupper.2
  omega

/-! ## Splitting -/

/-- A list whose first element does not satisfy `p` loses nothing to `dropWhile p`. -/
theorem dropWhile_eq_self_of_head {p : Char → Bool} {cs : List Char}
    (h : ∀ c ∈ cs.head?, p c = false) : cs.dropWhile p = cs := by
  cases cs with
  | nil => rfl
  | cons c rest => exact List.dropWhile_cons_of_neg (by simp [h c rfl])

/-- Trimming drops the blanks `before` and `after` a text that neither starts nor ends with one. -/
theorem trimBlank_surrounded {before cs after : List Char}
    (hbefore : ∀ c ∈ before, isBlank c = true) (hafter : ∀ c ∈ after, isBlank c = true)
    (hhead : ∀ c ∈ cs.head?, isBlank c = false) (hlast : ∀ c ∈ cs.getLast?, isBlank c = false) :
    trimBlank (before ++ cs ++ after) = cs := by
  have hafter' : ∀ c ∈ after.reverse, isBlank c = true :=
    fun c hc => hafter c (List.mem_reverse.1 hc)
  rw [trimBlank, List.append_assoc, List.dropWhile_append_of_pos hbefore]
  cases cs with
  | nil =>
    rw [List.nil_append, List.dropWhile_eq_nil_iff.2 hafter]
    rfl
  | cons c rest =>
    have hstart : (c :: rest ++ after).dropWhile isBlank = c :: rest ++ after :=
      dropWhile_eq_self_of_head hhead
    rw [hstart, List.reverse_append, List.dropWhile_append_of_pos hafter',
      dropWhile_eq_self_of_head (by rwa [List.head?_reverse]), List.reverse_reverse]

/-- Trimming leaves a text without blanks as it is. -/
theorem trimBlank_eq_self {cs : List Char} (h : ∀ c ∈ cs, isBlank c = false) :
    trimBlank cs = cs := by
  have htrim : trimBlank ([] ++ cs ++ []) = cs := trimBlank_surrounded (by simp) (by simp)
    (fun c hc => h c (List.mem_of_mem_head? hc)) (fun c hc => h c (List.mem_of_mem_getLast? hc))
  rwa [List.nil_append, List.append_nil] at htrim

/-- A numeral `digits` ends where something begins that cannot belong to it. -/
theorem split_append {digits rest : List Char} (hdigits : ∀ c ∈ digits, c.isDigit = true)
    (hrest : ∀ c ∈ rest.head?, isNumeralChar c = false) :
    (digits ++ rest).takeWhile isNumeralChar = digits ∧
      (digits ++ rest).dropWhile isNumeralChar = rest := by
  have hnumeral : ∀ c ∈ digits, isNumeralChar c = true :=
    fun c hc => isNumeralChar_of_isDigit (hdigits c hc)
  rw [List.takeWhile_append_of_pos hnumeral, List.dropWhile_append_of_pos hnumeral]
  refine ⟨?_, dropWhile_eq_self_of_head hrest⟩
  cases rest with
  | nil => exact List.append_nil digits
  | cons c rest =>
    rw [List.takeWhile_cons_of_neg (by simp [hrest c rfl]), List.append_nil]

/-- A number in decimal digits with a `unit` behind it splits into these two. -/
theorem Measure.ofString_append (n : Nat) {unit : String}
    (hunit : ∀ c ∈ unit.toList, c.isLower = true) :
    Measure.ofString (toString n ++ unit) = ⟨Nat.toDigits 10 n, unit⟩ := by
  have hdigits : ∀ c ∈ Nat.toDigits 10 n, c.isDigit = true := fun c hc => isDigit_of_mem_toDigits hc
  have hchars : (toString n ++ unit).toList = Nat.toDigits 10 n ++ unit.toList := by
    rw [String.toList_append, Nat.toString_eq_ofList_toDigits, String.toList_ofList]
  have hblank : ∀ c ∈ Nat.toDigits 10 n ++ unit.toList, isBlank c = false := by
    intro c hc
    apply isBlank_eq_false
    rcases List.mem_append.1 hc with hc | hc
    · have := isDigit_iff.1 (hdigits c hc)
      omega
    · have := isLower_iff.1 (hunit c hc)
      omega
  have hlower : unit.toList.map Char.toLower = unit.toList :=
    (List.map_congr_left fun c hc => toLower_of_isLower (hunit c hc)).trans (List.map_id _)
  obtain ⟨htake, hdrop⟩ := split_append hdigits fun c hc =>
    isNumeralChar_of_isLower (hunit c (List.mem_of_mem_head? hc))
  simp only [Measure.ofString, hchars, trimBlank_eq_self hblank, htake, hdrop,
    trimBlank_eq_self fun c hc => hblank c (List.mem_append_right _ hc), hlower,
    String.ofList_toList]

end AdaptiveBatch.Text
