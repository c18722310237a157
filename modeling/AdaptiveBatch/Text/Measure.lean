import AdaptiveBatch.Numeric.Word

/-! # Numbers with a unit

Timeouts and sizes are written as a number and a unit, `30 s` or `16mb`. This file takes such a text
apart; what the units mean is said where the quantity is defined.

* **`isBlank`** — the characters that may surround a value, those with the White_Space property of
  the Unicode standard; **`trimBlank`** drops them from both ends of a text;
* **`count?`** reads a run of decimal digits as a 64-bit count;
* **`Measure.ofString`** splits a text into its numeral and its unit, blanks around both removed and
  the unit in lower case. -/

namespace AdaptiveBatch.Text

/-! ## Blank characters -/

/-- Whether a character has the Unicode property White_Space. -/
def isBlank (c : Char) : Bool :=
  let n := c.toNat
  (9 ≤ n && n ≤ 13) || n == 0x20 || n == 0x85 || n == 0xa0 || n == 0x1680 ||
    (0x2000 ≤ n && n ≤ 0x200a) || n == 0x2028 || n == 0x2029 || n == 0x202f || n == 0x205f ||
    n == 0x3000

/-- The characters without the blanks at either end. -/
def trimBlank (cs : List Char) : List Char :=
  ((cs.dropWhile isBlank).reverse.dropWhile isBlank).reverse

/-! ## Numerals -/

/-- The value of a run of decimal digits, most significant first. -/
def digitsValue (digits : List Char) : Nat :=
  digits.foldl (fun n c => 10 * n + (c.toNat - '0'.toNat)) 0

/-- The 64-bit count written by a nonempty run of decimal digits; leading zeros are allowed. -/
def count? (cs : List Char) : Option Nat :=
  if cs ≠ [] ∧ cs.all Char.isDigit ∧ digitsValue cs < Word.limit then some (digitsValue cs)
  else none

/-- The reader `count?` gives `n` on characters iff they are a non-empty run of decimal digits of
value `n` and `n` fits into 64 bits. -/
theorem count?_eq_some_iff {cs : List Char} {n : Nat} :
    count? cs = some n ↔
      cs ≠ [] ∧ cs.all Char.isDigit = true ∧ digitsValue cs = n ∧ n < Word.limit := by
  unfold count?
  by_cases h : cs ≠ [] ∧ cs.all Char.isDigit ∧ digitsValue cs < Word.limit
  · rw [if_pos h]
    obtain ⟨hne, hall, hlt⟩ := h
    constructor
    · intro heq
      cases heq
      exact ⟨hne, hall, rfl, hlt⟩
    · rintro ⟨_, _, rfl, _⟩
      rfl
  · rw [if_neg h]
    constructor
    · intro heq
      cases heq
    · rintro ⟨hne, hall, rfl, hlt⟩
      exact absurd ⟨hne, hall, hlt⟩ h

/-- A text split into a numeral and a unit. -/
structure Measure where
  /-- The leading digits, signs and points. -/
  numeral : List Char
  /-- What follows them, in lower case. -/
  unit : String
deriving DecidableEq, Repr

/-- The characters a numeral may consist of. -/
def isNumeralChar (c : Char) : Bool :=
  c.isDigit || c == '-' || c == '.'

/-- Splits a text where its first character that cannot belong to a numeral stands. -/
def Measure.ofString (s : String) : Measure :=
  let cs := trimBlank s.toList
  { numeral := cs.takeWhile isNumeralChar
    unit := String.ofList ((trimBlank (cs.dropWhile isNumeralChar)).map Char.toLower) }

end AdaptiveBatch.Text
