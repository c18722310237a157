import AdaptiveBatch.Datum

/-! # Strings of TOML texts

Four kinds of string: between double quotes with escapes or between single quotes without, each on
one line or, between three quotes, on several.

* **`readString`** reads any of them, **`readLineString`** those that end on their line. -/

namespace AdaptiveBatch.Toml

/-- Whether a character may stand in a string or a comment as itself. -/
def isTextChar (c : Char) : Bool :=
  c == '\t' || (0x20 ≤ c.toNat && c.toNat ≠ 0x7f)

/-- The value of a hexadecimal digit. -/
def hexDigit? (c : Char) : Option Nat :=
  if c.isDigit then some (c.toNat - '0'.toNat)
  else if 'a' ≤ c ∧ c ≤ 'f' then some (c.toNat - 'a'.toNat + 10)
  else if 'A' ≤ c ∧ c ≤ 'F' then some (c.toNat - 'A'.toNat + 10)
  else none

/-- The character with a code point in hexadecimal digits. -/
def codePoint? (cs : List Char) : Option Char := do
  let n ← cs.foldlM (fun n c => (hexDigit? c).map (16 * n + ·)) 0
  if n.isValidChar then some (Char.ofNat n) else none

/-- The character written by a backslash and one more character. -/
def shortEscape? : Char → Option Char
  | 'b' => some '\x08'
  | 't' => some '\t'
  | 'n' => some '\n'
  | 'f' => some '\x0c'
  | 'r' => some '\r'
  | '"' => some '"'
  | '\\' => some '\\'
  | _ => none

/-- Reads a string on one line with escapes, behind its opening quote; `reversed` holds the
characters so far, last one first. -/
def readBasic (reversed : List Char) : List Char → Option (String × List Char)
  | '"' :: rest => some (String.ofList reversed.reverse, rest)
  | '\\' :: 'u' :: a :: b :: c :: d :: rest =>
    match codePoint? [a, b, c, d] with
    | some e => readBasic (e :: reversed) rest
    | none => none
  | '\\' :: 'U' :: a :: b :: c :: d :: e :: f :: g :: h :: rest =>
    match codePoint? [a, b, c, d, e, f, g, h] with
    | some e => readBasic (e :: reversed) rest
    | none => none
  | '\\' :: c :: rest =>
    match shortEscape? c with
    | some e => readBasic (e :: reversed) rest
    | none => none
  | c :: rest => if isTextChar c then readBasic (c :: reversed) rest else none
  | [] => none

/-- Reads a string on one line without escapes, behind its opening quote. -/
def readLiteral (reversed : List Char) : List Char → Option (String × List Char)
  | '\'' :: rest => some (String.ofList reversed.reverse, rest)
  | c :: rest => if isTextChar c then readLiteral (c :: reversed) rest else none
  | [] => none

/-- Where a reader of a string on several lines stands. -/
inductive LineJoin
  /-- In the text. -/
  | none
  /-- Behind a backslash at the end of a line, the end not yet reached. -/
  | pending
  /-- In the blanks and line ends after it, which are dropped. -/
  | skipping
deriving DecidableEq

/-- Reads a string on several lines with escapes, behind its opening quotes. Up to two quotes may
stand directly before the closing ones. -/
def readLongBasic (reversed : List Char) (join : LineJoin) : List Char → Option (String × List Char)
  | '"' :: '"' :: '"' :: '"' :: '"' :: rest =>
    if join = .pending then .none
    else some (String.ofList ('"' :: '"' :: reversed).reverse, rest)
  | '"' :: '"' :: '"' :: '"' :: rest =>
    if join = .pending then .none else some (String.ofList ('"' :: reversed).reverse, rest)
  | '"' :: '"' :: '"' :: rest =>
    if join = .pending then .none else some (String.ofList reversed.reverse, rest)
  | '\r' :: '\n' :: rest =>
    if join = .none then readLongBasic ('\n' :: reversed) .none rest
    else readLongBasic reversed .skipping rest
  | '\n' :: rest =>
    if join = .none then readLongBasic ('\n' :: reversed) .none rest
    else readLongBasic reversed .skipping rest
  | ' ' :: rest =>
    if join = .none then readLongBasic (' ' :: reversed) .none rest
    else readLongBasic reversed join rest
  | '\t' :: rest =>
    if join = .none then readLongBasic ('\t' :: reversed) .none rest
    else readLongBasic reversed join rest
  | '\\' :: 'u' :: a :: b :: c :: d :: rest =>
    match join, codePoint? [a, b, c, d] with
    | .pending, _ => .none
    | _, some e => readLongBasic (e :: reversed) .none rest
    | _, .none => .none
  | '\\' :: 'U' :: a :: b :: c :: d :: e :: f :: g :: h :: rest =>
    match join, codePoint? [a, b, c, d, e, f, g, h] with
    | .pending, _ => .none
    | _, some e => readLongBasic (e :: reversed) .none rest
    | _, .none => .none
  | '\\' :: c :: rest =>
    match join, shortEscape? c with
    | .pending, _ => .none
    | _, some e => readLongBasic (e :: reversed) .none rest
    | _, .none =>
      if c = '\n' then readLongBasic reversed .skipping rest
      else if c = ' ' ∨ c = '\t' ∨ c = '\r' then readLongBasic reversed .pending (c :: rest)
      else .none
  | c :: rest =>
    if join ≠ .pending ∧ isTextChar c then readLongBasic (c :: reversed) .none rest else .none
  | [] => .none
termination_by cs => cs.length

/-- Reads a string on several lines without escapes, behind its opening quotes. -/
def readLongLiteral (reversed : List Char) : List Char → Option (String × List Char)
  | '\'' :: '\'' :: '\'' :: '\'' :: '\'' :: rest =>
    some (String.ofList ('\'' :: '\'' :: reversed).reverse, rest)
  | '\'' :: '\'' :: '\'' :: '\'' :: rest => some (String.ofList ('\'' :: reversed).reverse, rest)
  | '\'' :: '\'' :: '\'' :: rest => some (String.ofList reversed.reverse, rest)
  | '\r' :: '\n' :: rest => readLongLiteral ('\n' :: reversed) rest
  | '\n' :: rest => readLongLiteral ('\n' :: reversed) rest
  | c :: rest => if isTextChar c then readLongLiteral (c :: reversed) rest else none
  | [] => none

/-- The text without the line end that may follow the opening quotes. -/
def dropLineEnd : List Char → List Char
  | '\n' :: rest => rest
  | '\r' :: '\n' :: rest => rest
  | cs => cs

/-- Reads a string that ends on its line, with its quotes. -/
def readLineString : List Char → Option (String × List Char)
  | '"' :: rest => readBasic [] rest
  | '\'' :: rest => readLiteral [] rest
  | _ => none

/-- Reads a string of any kind, with its quotes. -/
def readString : List Char → Option (String × List Char)
  | '"' :: '"' :: '"' :: rest => readLongBasic [] .none (dropLineEnd rest)
  | '\'' :: '\'' :: '\'' :: rest => readLongLiteral [] (dropLineEnd rest)
  | cs => readLineString cs

end AdaptiveBatch.Toml
