import AdaptiveBatch.Datum
import AdaptiveBatch.Decimal.Notation

/-! # Writing TOML texts

* **`Toml.render`** writes a table of plain values and tables. The plain values of a table come
  first, below its header; every table inside follows with a header of its own and a blank line in
  front. A table that holds nothing but tables needs no header, and an empty one gets it. -/

namespace AdaptiveBatch.Toml

/-- One character as it stands in a string. -/
def escaped (c : Char) : List Char :=
  if c = '"' then ['\\', '"']
  else if c = '\\' then ['\\', '\\']
  else if c = '\n' then ['\\', 'n']
  else if c = '\r' then ['\\', 'r']
  else if c = '\t' then ['\\', 't']
  else [c]

/-- A plain value; tables and lists have none. -/
def scalar? : Datum → Option String
  | .bool b => some (if b then "true" else "false")
  | .int n => some (toString n)
  | .float x => some (FloatText.positionalPoint x)
  | .text s => some (String.ofList ('"' :: s.toList.flatMap escaped ++ ['"']))
  | _ => none

/-- The lines of the plain values of a table. -/
def pairLines (entries : List (String × Datum)) : List String :=
  entries.filterMap fun (name, d) => (scalar? d).map fun value => s!"{name} = {value}\n"

mutual

/-- The sections of a table reached by a key: its own, if it has one, and those of the tables
inside. -/
def sections (key : List String) : Datum → List String
  | .table entries =>
    let lines := pairLines entries
    let header := ("[" ++ ".".intercalate key ++ "]\n")
    let own :=
      if key.isEmpty then (if lines.isEmpty then [] else [String.join lines])
      else if lines.isEmpty && !entries.isEmpty then []
      else [header ++ String.join lines]
    own ++ innerSections key entries
  | _ => []

/-- The sections of the tables among the entries of a table. -/
def innerSections (key : List String) : List (String × Datum) → List String
  | [] => []
  | (name, d) :: rest => sections (key ++ [name]) d ++ innerSections key rest

end

/-- The text of a table. -/
def render (d : Datum) : String := "\n".intercalate (sections [] d)

end AdaptiveBatch.Toml
