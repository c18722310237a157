import AdaptiveBatch.Datum
import AdaptiveBatch.Text.Measure

/-! # Numbers, dates and words of TOML texts

A scalar that is not a string is a run of letters, digits and the signs `_ + - . :`, so it is read
as a whole: it is a truth value, an integer, a number or a date.

* **`Scalar.ofRun?`** — the value of a run;
* **`Scalar.isDateTime`** — the dates and times of the standard. A date is kept as a table with one
  entry, which is how it presents itself to a record. -/

namespace AdaptiveBatch.Toml.Scalar

/-- The characters a scalar may consist of. -/
def isRunChar (c : Char) : Bool :=
  c.isAlphanum || c == '_' || c == '+' || c == '-' || c == '.' || c == ':'

/-! ## Digits -/

/-- Digits of one kind with single underscores between them; gives the digits. -/
def digits? (isDigit : Char → Bool) : List Char → Option (List Char)
  | [] => none
  | [c] => if isDigit c then some [c] else none
  | c :: '_' :: d :: rest =>
    if isDigit c && isDigit d then (digits? isDigit (d :: rest)).map (c :: ·) else none
  | c :: rest => if isDigit c then (digits? isDigit rest).map (c :: ·) else none

/-- A decimal integer without a sign: no zero in front of another digit. -/
def decimalDigits? (cs : List Char) : Option (List Char) :=
  if cs.head? = some '0' ∧ 1 < cs.length then none else digits? Char.isDigit cs

/-- Whether a character is a hexadecimal digit. -/
def isHexDigit (c : Char) : Bool :=
  c.isDigit || ('a' ≤ c && c ≤ 'f') || ('A' ≤ c && c ≤ 'F')

/-- The value of a letter or digit in a positional notation. -/
def digitValue (c : Char) : Nat :=
  if c.isDigit then c.toNat - '0'.toNat else c.toLower.toNat - 'a'.toNat + 10

/-- The number written by digits in a base. -/
def inBase (base : Nat) (digits : List Char) : Nat :=
  digits.foldl (fun n c => base * n + digitValue c) 0

/-- A sign and the rest of a run. -/
def splitSign : List Char → Bool × List Char
  | '-' :: rest => (true, rest)
  | '+' :: rest => (false, rest)
  | rest => (false, rest)

/-- A signed 64-bit integer. -/
def integer? : List Char → Option Int
  | '0' :: 'x' :: rest => do
    let n := inBase 16 (← digits? isHexDigit rest)
    if n < Word.limit / 2 then some n else none
  | '0' :: 'o' :: rest => do
    let n := inBase 8 (← digits? (fun c => '0' ≤ c && c ≤ '7') rest)
    if n < Word.limit / 2 then some n else none
  | '0' :: 'b' :: rest => do
    let n := inBase 2 (← digits? (fun c => c == '0' || c == '1') rest)
    if n < Word.limit / 2 then some n else none
  | cs => do
    let (negative, rest) := splitSign cs
    let n := inBase 10 (← decimalDigits? rest)
    if negative then (if n ≤ Word.limit / 2 then some (-n) else none)
    else if n < Word.limit / 2 then some n else none

/-! ## Floating-point numbers -/

/-- The number nearest to `digits · 10 ^ exponent`. -/
def nearest (digits : List Char) (exponent : Int) : Float :=
  let n := Text.digitsValue digits
  let leading : Int := (Nat.toDigits 10 n).length + exponent
  if n = 0 then 0
  else if 400 < leading then 1 / 0
  else if leading < -400 then 0
  else if 0 ≤ exponent then Float.ofScientific n false exponent.toNat
  else Float.ofScientific n true exponent.natAbs

/-- An exponent with its sign. -/
def exponent? (cs : List Char) : Option Int := do
  let (negative, rest) := splitSign cs
  let n := Text.digitsValue (← digits? Char.isDigit rest)
  some (if negative then -n else n)

/-- The magnitude of a number with a fraction, an exponent or both. -/
def magnitude? (cs : List Char) : Option Float := do
  let isMark := fun c : Char => c == 'e' || c == 'E'
  let mantissa := cs.takeWhile (!isMark ·)
  let tail := cs.dropWhile (!isMark ·)
  let whole ← decimalDigits? (mantissa.takeWhile (· != '.'))
  let point := mantissa.dropWhile (· != '.')
  if point = [] ∧ tail = [] then none
  let fraction ← if point = [] then some [] else digits? Char.isDigit (point.drop 1)
  let exponent ← if tail = [] then some 0 else exponent? (tail.drop 1)
  some (nearest (whole ++ fraction) (exponent - fraction.length))

/-- A floating-point number; one that is too large for its type is refused unless it is negative. -/
def float? (cs : List Char) : Option Float :=
  let (negative, rest) := splitSign cs
  if rest = ['i', 'n', 'f'] then some (if negative then -(1 / 0) else 1 / 0)
  else if rest = ['n', 'a', 'n'] then some (0 / 0)
  else match magnitude? rest with
    | some x => if negative then some (-x) else if x.isInf then none else some x
    | none => none

/-! ## Dates and times -/

/-- The number at the front written by exactly `count` digits, if it lies in the range. -/
def fixedDigits? (count low high : Nat) (cs : List Char) : Option (Nat × List Char) :=
  let digits := cs.take count
  let n := Text.digitsValue digits
  if digits.length = count ∧ digits.all Char.isDigit ∧ low ≤ n ∧ n ≤ high then
    some (n, cs.drop count)
  else none

/-- The rest behind a character that must come first. -/
def expect? (c : Char) : List Char → Option (List Char)
  | d :: rest => if d = c then some rest else none
  | [] => none

/-- The number of days of a month. -/
def daysInMonth (year month : Nat) : Nat :=
  if month = 2 then
    if year % 4 = 0 ∧ (year % 100 ≠ 0 ∨ year % 400 = 0) then 29 else 28
  else if month = 4 ∨ month = 6 ∨ month = 9 ∨ month = 11 then 30
  else 31

/-- The rest behind a date. -/
def afterDate? (cs : List Char) : Option (List Char) := do
  let (year, cs) ← fixedDigits? 4 0 9999 cs
  let (month, cs) ← fixedDigits? 2 1 12 (← expect? '-' cs)
  let (_, cs) ← fixedDigits? 2 1 (daysInMonth year month) (← expect? '-' cs)
  some cs

/-- The rest behind hours and minutes. -/
def afterMinutes? (cs : List Char) : Option (List Char) := do
  let (_, cs) ← fixedDigits? 2 0 23 cs
  let (_, cs) ← fixedDigits? 2 0 59 (← expect? ':' cs)
  some cs

/-- The rest behind a time of day, with a fraction of a second if there is one. -/
def afterTime? (cs : List Char) : Option (List Char) := do
  let cs ← afterMinutes? cs
  let (_, cs) ← fixedDigits? 2 0 60 (← expect? ':' cs)
  match cs with
  | '.' :: rest =>
    if (rest.takeWhile Char.isDigit).isEmpty then none else some (rest.dropWhile Char.isDigit)
  | _ => some cs

/-- Whether the characters are an offset from universal time, or nothing. -/
def isOffset : List Char → Bool
  | [] => true
  | ['Z'] => true
  | ['z'] => true
  | '+' :: rest => afterMinutes? rest == some []
  | '-' :: rest => afterMinutes? rest == some []
  | _ => false

/-- Whether the characters are a date, a time, or a date with a time and perhaps an offset. -/
def isDateTime (cs : List Char) : Bool :=
  match afterDate? cs with
  | some [] => true
  | some (c :: rest) =>
    (c == 'T' || c == 't' || c == ' ') && ((afterTime? rest).map isOffset).getD false
  | none => afterTime? cs == some []

/-! ## Scalars -/

/-- A date as a record sees it. -/
def date (cs : List Char) : Datum := .table [("datetime", .text (String.ofList cs))]

/-- The value of a run, if it has one. -/
def ofRun? (cs : List Char) : Option Datum :=
  if cs = ['t', 'r', 'u', 'e'] then some (.bool true)
  else if cs = ['f', 'a', 'l', 's', 'e'] then some (.bool false)
  else if isDateTime cs then some (date cs)
  else match integer? cs with
    | some n => some (.int n)
    | none => (float? cs).map .float

/-- Reads a scalar that is not a string. A time may follow a date behind one blank. -/
def read (cs : List Char) : Option (Datum × List Char) :=
  let run := cs.takeWhile isRunChar
  let rest := cs.dropWhile isRunChar
  match afterDate? run, rest with
  | some [], ' ' :: c :: rest' =>
    if c.isDigit then
      let long := run ++ ' ' :: (c :: rest').takeWhile isRunChar
      if isDateTime long then some (date long, (c :: rest').dropWhile isRunChar) else none
    else (ofRun? run).map (·, rest)
  | _, _ => (ofRun? run).map (·, rest)

end AdaptiveBatch.Toml.Scalar
