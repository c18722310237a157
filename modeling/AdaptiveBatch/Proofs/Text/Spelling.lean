import AdaptiveBatch.Proofs.Text.Measure
import Mathlib.Data.List.DropRight

/-! # The grammar of a number with a unit

A number with a unit is spelt as decimal digits and letters in either case, with blanks around and
between them. Taking a text apart looks at one character after the other instead: the numeral ends
where a character stands that is no digit, sign or point, and what is left is the unit. Both come
to the same for the units that there are, since those consist of letters.

* **`Spells`** — the grammar;
* **`spells_iff`** — a text is spelt with a unit exactly when it is taken apart into a count and
  that unit. -/

namespace AdaptiveBatch.Text

/-- A text that consists of the digits of a number and of a unit in any case, the unit possibly
empty, with blanks before, between and behind them. -/
def Spells (s : String) (value : Nat) (unit : String) : Prop :=
  ∃ before digits between letters after : List Char,
    s.toList = before ++ digits ++ between ++ letters ++ after ∧
      (∀ c ∈ before ++ between ++ after, isBlank c = true) ∧
      digits ≠ [] ∧ (∀ c ∈ digits, c.isDigit = true) ∧ digitsValue digits = value ∧
      letters.map Char.toLower = unit.toList

variable {s unit : String} {value : Nat} {digits letters : List Char} {c : Char}

/-! ## Characters -/

/-- A letter in either case by its code point, `65` to `90` or `97` to `122`. -/
theorem letter_range (h : c.toLower.isLower = true) :
    65 ≤ c.toNat ∧ c.toNat ≤ 90 ∨ 97 ≤ c.toNat ∧ c.toNat ≤ 122 := by
  by_cases hupper : c.val ≥ 'A'.val ∧ c.val ≤ 'Z'.val
  · exact .inl ⟨UInt32.le_iff_toNat_le.1 hupper.1, UInt32.le_iff_toNat_le.1 hupper.2⟩
  · have hself : c.toLower = c := dif_neg hupper
    rw [hself] at h
    exact .inr (isLower_iff.1 h)

/-- No letter is a blank, in either case. -/
theorem isBlank_of_letter (h : c.toLower.isLower = true) : isBlank c = false := by
  have := letter_range h
  exact isBlank_eq_false (by omega)

/-- A character of a numeral, by `isNumeralChar`, is visible. -/
theorem isBlank_of_isNumeralChar (h : isNumeralChar c = true) : isBlank c = false := by
  simp only [isNumeralChar, Bool.or_eq_true, beq_iff_eq, isDigit_iff] at h
  rcases h with (h | rfl) | rfl
  · exact isBlank_eq_false (by omega)
  · decide
  · decide

/-- No digit is a blank. -/
theorem isBlank_of_isDigit (h : c.isDigit = true) : isBlank c = false :=
  isBlank_of_isNumeralChar (isNumeralChar_of_isDigit h)

/-- No blank belongs to a numeral. -/
theorem isNumeralChar_of_isBlank (h : isBlank c = true) : isNumeralChar c = false := by
  cases hc : isNumeralChar c with
  | false => rfl
  | true => rw [isBlank_of_isNumeralChar hc] at h; cases h

/-- No letter belongs to a numeral, in either case. -/
theorem isNumeralChar_of_letter (h : c.toLower.isLower = true) : isNumeralChar c = false := by
  have hrange := letter_range h
  cases hc : isNumeralChar c with
  | false => rfl
  | true =>
    simp only [isNumeralChar, Bool.or_eq_true, beq_iff_eq, isDigit_iff] at hc
    rcases hc with (hdigit | rfl) | rfl
    · omega
    · exact absurd hrange (by decide)
    · exact absurd hrange (by decide)

/-! ## Taking a text apart -/

/-- A text is what `trimBlank` leaves of it, with blanks around. -/
theorem exists_surrounding (cs : List Char) : ∃ before after : List Char,
    (∀ c ∈ before ++ after, isBlank c = true) ∧ cs = before ++ trimBlank cs ++ after := by
  refine ⟨cs.takeWhile isBlank, (cs.dropWhile isBlank).rtakeWhile isBlank, ?_, ?_⟩
  · intro c hc
    rcases List.mem_append.1 hc with hc | hc
    · exact List.mem_takeWhile_imp hc
    · exact List.mem_rtakeWhile_imp hc
  · have hdrop : trimBlank cs ++ (cs.dropWhile isBlank).rtakeWhile isBlank =
        cs.dropWhile isBlank :=
      List.rdropWhile_append_rtakeWhile
    rw [List.append_assoc, hdrop, List.takeWhile_append_dropWhile]

/-- What is taken apart into `digits` and a `unit` is spelt with them. -/
theorem spells_of_ofString (h : Measure.ofString s = ⟨digits, unit⟩) (hne : digits ≠ [])
    (hdigits : ∀ c ∈ digits, c.isDigit = true) : Spells s (digitsValue digits) unit := by
  obtain ⟨hnumeral, hunit⟩ := Measure.mk.inj h
  obtain ⟨before, after, hblank, hs⟩ := exists_surrounding s.toList
  obtain ⟨between, behind, hblank', hrest⟩ :=
    exists_surrounding ((trimBlank s.toList).dropWhile isNumeralChar)
  refine ⟨before, digits, between, trimBlank ((trimBlank s.toList).dropWhile isNumeralChar),
    behind ++ after, ?_, ?_, hne, hdigits, rfl, ?_⟩
  · calc s.toList
        = before ++ ((trimBlank s.toList).takeWhile isNumeralChar ++
            (trimBlank s.toList).dropWhile isNumeralChar) ++ after := by
          rw [List.takeWhile_append_dropWhile]
          exact hs
      _ = _ := by
          rw [hnumeral]
          nth_rewrite 1 [hrest]
          simp only [List.append_assoc]
  · simp only [List.mem_append] at hblank hblank' ⊢
    grind
  · rw [← hunit, String.toList_ofList]

/-- Trimming leaves the `digits` and then a `rest`, possibly with blanks in front, that is the
unit. -/
theorem exists_rest {before between after : List Char}
    (hblank : ∀ c ∈ before ++ between ++ after, isBlank c = true) (hne : digits ≠ [])
    (hdigits : ∀ c ∈ digits, c.isDigit = true)
    (hletters : ∀ c ∈ letters, c.toLower.isLower = true) : ∃ rest,
      trimBlank (before ++ digits ++ between ++ letters ++ after) = digits ++ rest ∧
      (∀ c ∈ rest.head?, isNumeralChar c = false) ∧ trimBlank rest = letters := by
  simp only [List.mem_append, or_imp, forall_and] at hblank
  obtain ⟨⟨hbefore, hbetween⟩, hafter⟩ := hblank
  have hfirst : ∀ c ∈ digits.head?, isBlank c = false :=
    fun c hc => isBlank_of_isDigit (hdigits c (List.mem_of_mem_head? hc))
  -- Without a unit the blanks behind the digits are trimmed at once, else they stand before it.
  by_cases hbare : letters = []
  · subst hbare
    refine ⟨[], ?_, by simp, rfl⟩
    rw [List.append_nil, List.append_nil, List.append_assoc (before ++ digits)]
    refine trimBlank_surrounded hbefore ?_ hfirst ?_
    · exact fun c hc => (List.mem_append.1 hc).elim (hbetween c) (hafter c)
    · exact fun c hc => isBlank_of_isDigit (hdigits c (List.mem_of_mem_getLast? hc))
  · have hlast : ∀ c ∈ letters.getLast?, isBlank c = false :=
      fun c hc => isBlank_of_letter (hletters c (List.mem_of_mem_getLast? hc))
    refine ⟨between ++ letters, ?_, ?_, ?_⟩
    · rw [List.append_assoc before, List.append_assoc before, List.append_assoc digits]
      refine trimBlank_surrounded hbefore hafter ?_ ?_
      · rwa [List.head?_append_of_ne_nil _ hne]
      · rwa [← List.append_assoc, List.getLast?_append_of_ne_nil _ hbare]
    · intro c hc
      rcases List.mem_append.1 (List.mem_of_mem_head? hc) with hc | hc
      · exact isNumeralChar_of_isBlank (hbetween c hc)
      · exact isNumeralChar_of_letter (hletters c hc)
    · have htrim : trimBlank (between ++ letters ++ []) = letters :=
        trimBlank_surrounded hbetween (by simp)
          (fun c hc => isBlank_of_letter (hletters c (List.mem_of_mem_head? hc))) hlast
      rwa [List.append_nil] at htrim

/-- The parts of a text that is spelt with a `unit` of letters are found again. -/
theorem Spells.ofString (h : Spells s value unit) (hunit : ∀ c ∈ unit.toList, c.isLower = true) :
    ∃ digits, Measure.ofString s = ⟨digits, unit⟩ ∧ digits ≠ [] ∧
      (∀ c ∈ digits, c.isDigit = true) ∧ digitsValue digits = value := by
  obtain ⟨before, digits, between, letters, after, hs, hblank, hne, hdigits, hvalue, hlower⟩ := h
  have hletters : ∀ c ∈ letters, c.toLower.isLower = true :=
    fun c hc => hunit _ (hlower ▸ List.mem_map_of_mem hc)
  obtain ⟨rest, htrim, hhead, hrest⟩ := exists_rest hblank hne hdigits hletters
  rw [← hs] at htrim
  obtain ⟨htake, hdrop⟩ := split_append hdigits hhead
  refine ⟨digits, ?_, hne, hdigits, hvalue⟩
  simp only [Measure.ofString, htrim, htake, hdrop, hrest, hlower, String.ofList_toList]

/-- A text is spelt with a 64-bit count and a `unit` of letters exactly when it is taken apart into
them. -/
theorem spells_iff (hunit : ∀ c ∈ unit.toList, c.isLower = true) :
    Spells s value unit ∧ value < Word.limit ↔
      (Measure.ofString s).unit = unit ∧ count? (Measure.ofString s).numeral = some value := by
  constructor
  · rintro ⟨h, hlt⟩
    obtain ⟨digits, hs, hne, hdigits, hvalue⟩ := h.ofString hunit
    rw [hs]
    exact ⟨rfl, count?_eq_some_iff.2 ⟨hne, List.all_eq_true.2 hdigits, hvalue, hlt⟩⟩
  · rintro ⟨rfl, hcount⟩
    obtain ⟨hne, hdigits, rfl, hlt⟩ := count?_eq_some_iff.1 hcount
    exact ⟨spells_of_ofString rfl hne (List.all_eq_true.1 hdigits), hlt⟩

end AdaptiveBatch.Text
