import AdaptiveBatch.Json.Number

/-! # Reading JSON texts

* **`Json.read?`** reads a text that holds exactly one value, blanks around it allowed;
* **`Json.dialect`** — records may be lists of exactly their fields, and the payload of a case is
  `null`. -/

namespace AdaptiveBatch.Json

/-- JSON as a source of records. -/
def dialect : Datum.Dialect where
  surplusAllowed := false
  isEmptyPayload
    | .null => true
    | _ => false

/-- The characters that may stand between tokens. -/
def isBlank (c : Char) : Bool :=
  c == ' ' || c == '\t' || c == '\n' || c == '\r'

/-- The text from its first character that is not blank. -/
def skipBlank (cs : List Char) : List Char := cs.dropWhile isBlank

/-! ## Strings -/

/-- The value of a hexadecimal digit. -/
def hexDigit? (c : Char) : Option Nat :=
  if c.isDigit then some (c.toNat - '0'.toNat)
  else if 'a' ≤ c ∧ c ≤ 'f' then some (c.toNat - 'a'.toNat + 10)
  else if 'A' ≤ c ∧ c ≤ 'F' then some (c.toNat - 'A'.toNat + 10)
  else none

/-- The number written by hexadecimal digits. -/
def hexValue? (cs : List Char) : Option Nat :=
  cs.foldlM (fun n c => (hexDigit? c).map (16 * n + ·)) 0

/-- The character written by a backslash and one more character. -/
def shortEscape? : Char → Option Char
  | '"' => some '"'
  | '\\' => some '\\'
  | '/' => some '/'
  | 'b' => some '\x08'
  | 'f' => some '\x0c'
  | 'n' => some '\n'
  | 'r' => some '\r'
  | 't' => some '\t'
  | _ => none

/-- What has been read of a string. -/
structure Scanned where
  /-- The characters, last one first. -/
  reversed : List Char
  /-- The first half of a character beyond the basic plane, when its second half must follow. -/
  half : Option Nat
  /-- Whether every half found its other half. -/
  intact : Bool

/-- Adds a character; a half that waits is left without its other half. -/
def Scanned.push (p : Scanned) (c : Char) : Scanned :=
  { reversed := c :: p.reversed, half := none, intact := p.intact && p.half.isNone }

/-- Adds a 16-bit code unit. -/
def Scanned.pushUnit (p : Scanned) (n : Nat) : Scanned :=
  if 0xd800 ≤ n ∧ n < 0xdc00 then
    { p with half := some n, intact := p.intact && p.half.isNone }
  else if 0xdc00 ≤ n ∧ n < 0xe000 then
    match p.half with
    | some high =>
      { p with
        reversed := Char.ofNat (0x10000 + (high - 0xd800) * 0x400 + (n - 0xdc00)) :: p.reversed
        half := none }
    | none => { p with intact := false }
  else p.push (Char.ofNat n)

/-- The finished string. -/
def Scanned.toDatum (p : Scanned) : Datum :=
  if p.intact && p.half.isNone then .text (String.ofList p.reversed.reverse) else .unrepresentable

/-- Reads a string behind its opening quote. -/
def readString (p : Scanned) : List Char → Option (Datum × List Char)
  | '"' :: rest => some (p.toDatum, rest)
  | '\\' :: 'u' :: a :: b :: c :: d :: rest =>
    match hexValue? [a, b, c, d] with
    | some n => readString (p.pushUnit n) rest
    | none => none
  | '\\' :: c :: rest =>
    match shortEscape? c with
    | some e => readString (p.push e) rest
    | none => none
  | c :: rest => if c.toNat < 0x20 then none else readString (p.push c) rest
  | [] => none

/-- Reads a string with its quotes, as the name of an entry. -/
def readName : List Char → Option (Datum × List Char)
  | '"' :: rest => readString ⟨[], none, true⟩ rest
  | _ => none

/-! ## Numbers -/

/-- Splits off the digits at the front; there must be one. -/
def readDigits (cs : List Char) : Option (List Char × List Char) :=
  let digits := cs.takeWhile Char.isDigit
  if digits.isEmpty then none else some (digits, cs.dropWhile Char.isDigit)

/-- Reads the fraction of a numeral, if there is one. -/
def readFraction : List Char → Option (Option (List Char) × List Char)
  | '.' :: rest => do
    let (digits, rest) ← readDigits rest
    some (some digits, rest)
  | cs => some (none, cs)

/-- Reads the exponent of a numeral, if there is one. -/
def readExponent : List Char → Option (Option (Bool × List Char) × List Char)
  | c :: rest =>
    if c = 'e' ∨ c = 'E' then do
      let (below, rest) := match rest with
        | '-' :: rest => (true, rest)
        | '+' :: rest => (false, rest)
        | rest => (false, rest)
      let (digits, rest) ← readDigits rest
      some (some (below, digits), rest)
    else some (none, c :: rest)
  | [] => some (none, [])

/-- Reads a number. A zero in front of another digit is refused. -/
def readNumber (cs : List Char) : Option (Datum × List Char) := do
  let (negative, rest) := match cs with
    | '-' :: rest => (true, rest)
    | cs => (false, cs)
  let (whole, rest) ← readDigits rest
  if whole.head? = some '0' ∧ 1 < whole.length then none
  let (fraction, rest) ← readFraction rest
  let (exponent, rest) ← readExponent rest
  some (Numeral.toDatum { negative, whole, fraction, exponent }, rest)

/-! ## Values -/

/-- Reads one of the three words. -/
def readWord (cs : List Char) : Option (Datum × List Char) :=
  match cs with
  | 'n' :: 'u' :: 'l' :: 'l' :: rest => some (.null, rest)
  | 't' :: 'r' :: 'u' :: 'e' :: rest => some (.bool true, rest)
  | 'f' :: 'a' :: 'l' :: 's' :: 'e' :: rest => some (.bool false, rest)
  | _ => none

/-- A reader of a part of a text, which gives the rest as well. -/
abbrev Reader (α : Type) := List Char → Option (α × List Char)

/-- Reads items separated by commas up to the closing character; there is at least one. `fuel`
bounds their number. -/
def readItems {α : Type} (close : Char) (item : Reader α) : (fuel : Nat) → Reader (List α)
  | 0, _ => none
  | fuel + 1, cs => do
    let (a, rest) ← item (skipBlank cs)
    match skipBlank rest with
    | c :: rest =>
      if c = close then some ([a], rest)
      else if c = ',' then
        let (more, rest) ← readItems close item fuel rest
        some (a :: more, rest)
      else none
    | [] => none

/-- Reads a name, a colon and a value. -/
def readEntry (value : Reader Datum) : Reader (Datum × Datum) := fun cs => do
  let (name, rest) ← readName cs
  match skipBlank rest with
  | ':' :: rest =>
    let (d, rest) ← value (skipBlank rest)
    some ((name, d), rest)
  | _ => none

/-- The table of entries with their names; every name must be a text. -/
def tableOf (entries : List (Datum × Datum)) : Datum :=
  match entries.mapM fun (name, d) => name.asText?.map (·, d) with
  | some entries => .table entries
  | none => .unrepresentable

/-- Reads a value whose first character is next. Every nested value takes at least one character, so
`fuel` is never used up when it starts at the length of the text. -/
def readValue : (fuel : Nat) → Reader Datum
  | 0, _ => none
  | fuel + 1, cs =>
    match cs with
    | '"' :: rest => readString ⟨[], none, true⟩ rest
    | '[' :: rest =>
      match skipBlank rest with
      | ']' :: rest => some (.list [], rest)
      | rest =>
        (readItems ']' (readValue fuel) fuel rest).map fun (items, rest) => (.list items, rest)
    | '{' :: rest =>
      match skipBlank rest with
      | '}' :: rest => some (.table [], rest)
      | rest =>
        (readItems '}' (readEntry (readValue fuel)) fuel rest).map fun (entries, rest) =>
          (tableOf entries, rest)
    | '-' :: _ => readNumber cs
    | c :: _ => if c.isDigit then readNumber cs else readWord cs
    | [] => none

/-- The value of a text that holds exactly one. -/
def read? (s : String) : Option Datum :=
  let cs := s.toList
  match readValue (cs.length + 1) (skipBlank cs) with
  | some (d, rest) => if skipBlank rest = [] then some d else none
  | none => none

end AdaptiveBatch.Json
