import AdaptiveBatch.Text.Measure

/-! # Written byte sizes

A size in bytes is a 64-bit count. It is written with a binary unit, `512kb`, `16 MiB`, `1g`, or as
bare bytes.

* **`ByteSize.parse?`** reads that form, **`ByteSize.format`** writes the largest of the units up to
  a gigabyte that represents the size exactly. -/

namespace AdaptiveBatch.ByteSize

/-- The bytes of a kilobyte. -/
def kilobyte : Nat := 1024

/-- The bytes of a megabyte. -/
def megabyte : Nat := 1024 * kilobyte

/-- The bytes of a gigabyte. -/
def gigabyte : Nat := 1024 * megabyte

/-- The bytes of a terabyte. -/
def terabyte : Nat := 1024 * gigabyte

/-- The number of bytes a unit stands for. -/
def unitSize? : String → Option Nat
  | "" | "b" => some 1
  | "k" | "kb" | "kib" => some kilobyte
  | "m" | "mb" | "mib" => some megabyte
  | "g" | "gb" | "gib" => some gigabyte
  | "t" | "tb" | "tib" => some terabyte
  | _ => none

/-- Reads a written size; a sign, a fraction, an unknown unit or a size of `2 ^ 64` bytes or more
makes it unreadable. -/
def parse? (s : String) : Option Nat := do
  let m := Text.Measure.ofString s
  let value ← Text.count? m.numeral
  let size ← unitSize? m.unit
  if value * size < Word.limit then some (value * size) else none

/-- Writes a size in the largest binary unit that divides it. -/
def format (bytes : Nat) : String :=
  if gigabyte ≤ bytes ∧ bytes % gigabyte = 0 then s!"{bytes / gigabyte}gb"
  else if megabyte ≤ bytes ∧ bytes % megabyte = 0 then s!"{bytes / megabyte}mb"
  else if kilobyte ≤ bytes ∧ bytes % kilobyte = 0 then s!"{bytes / kilobyte}kb"
  else s!"{bytes}b"

end AdaptiveBatch.ByteSize
