import AdaptiveBatch.Datum
import AdaptiveBatch.Decimal.Notation

/-! # Writing JSON texts

* **`Json.compact`** writes a value without blanks;
* **`Json.pretty`** writes one entry or item a line, indented by two blanks a level. -/

namespace AdaptiveBatch.Json

/-- One character as it stands in a string. -/
def escaped (c : Char) : List Char :=
  if c = '"' then ['\\', '"']
  else if c = '\\' then ['\\', '\\']
  else if c = '\x08' then ['\\', 'b']
  else if c = '\x0c' then ['\\', 'f']
  else if c = '\n' then ['\\', 'n']
  else if c = '\r' then ['\\', 'r']
  else if c = '\t' then ['\\', 't']
  else if c.toNat < 0x20 then
    ['\\', 'u', '0', '0', Nat.digitChar (c.toNat / 16), Nat.digitChar (c.toNat % 16)]
  else [c]

/-- A text as a string with its quotes. -/
def stringText (s : String) : String :=
  String.ofList ('"' :: s.toList.flatMap escaped ++ ['"'])

mutual

/-- A value without blanks. -/
def compact : Datum → String
  | .null => "null"
  | .bool b => if b then "true" else "false"
  | .int n => toString n
  | .float x => FloatText.compact x
  | .text s => stringText s
  | .list items => "[" ++ ",".intercalate (compactItems items) ++ "]"
  | .table entries => "\x7b" ++ ",".intercalate (compactEntries entries) ++ "\x7d"
  | .inlineTable entries => "\x7b" ++ ",".intercalate (compactEntries entries) ++ "\x7d"
  | .unrepresentable => "null"

/-- The items of a list without blanks. -/
def compactItems : List Datum → List String
  | [] => []
  | d :: rest => compact d :: compactItems rest

/-- The entries of a table without blanks. -/
def compactEntries : List (String × Datum) → List String
  | [] => []
  | (name, d) :: rest => (stringText name ++ ":" ++ compact d) :: compactEntries rest

end

/-- The blanks in front of a line at a level of nesting. -/
def indent (level : Nat) : String := String.ofList (List.replicate (2 * level) ' ')

/-- Parts on lines of their own, one level deeper than their brackets. -/
def block (left right : String) (level : Nat) : List String → String
  | [] => left ++ right
  | parts =>
    left ++ "\n" ++ ",\n".intercalate (parts.map (indent (level + 1) ++ ·)) ++ "\n" ++
      indent level ++ right

mutual

/-- A value at a level of nesting, on lines of its own. -/
def prettyAt (level : Nat) : Datum → String
  | .list items => block "[" "]" level (prettyItems (level + 1) items)
  | .table entries => block "\x7b" "\x7d" level (prettyEntries (level + 1) entries)
  | .inlineTable entries => block "\x7b" "\x7d" level (prettyEntries (level + 1) entries)
  | d => compact d

/-- The items of a list, each on lines of its own. -/
def prettyItems (level : Nat) : List Datum → List String
  | [] => []
  | d :: rest => prettyAt level d :: prettyItems level rest

/-- The entries of a table, each on lines of its own. -/
def prettyEntries (level : Nat) : List (String × Datum) → List String
  | [] => []
  | (name, d) :: rest =>
    (stringText name ++ ": " ++ prettyAt level d) :: prettyEntries level rest

end

/-- A value with one entry or item a line. -/
def pretty (d : Datum) : String := prettyAt 0 d

end AdaptiveBatch.Json
