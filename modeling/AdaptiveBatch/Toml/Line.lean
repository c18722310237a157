import AdaptiveBatch.Toml.Scalar
import AdaptiveBatch.Toml.Text
import AdaptiveBatch.Toml.Node

/-! # Lines of TOML texts

A text is a sequence of lines that set a key or open a table; blank lines and comments carry
nothing.

* **`Line`** — what a line says; **`readLines?`** — the lines of a text;
* **`readValue`** — a value, which may go on over several lines inside brackets. -/

namespace AdaptiveBatch.Toml

/-- A reader of a part of a text, which gives the rest as well. -/
abbrev Reader (α : Type) := List Char → Option (α × List Char)

/-- Whether a character separates tokens on a line. -/
def isSpace (c : Char) : Bool := c == ' ' || c == '\t'

/-- The text from its first character that is not a blank. -/
def skipSpace (cs : List Char) : List Char := cs.dropWhile isSpace

/-- The text behind a comment, if it starts with one. A character that may not stand in a comment
ends it and is met again by whoever reads on. -/
def skipComment : List Char → List Char
  | '#' :: rest => rest.dropWhile isTextChar
  | cs => cs

/-- The text behind a line end, if it starts with one. -/
def lineEnd? : List Char → Option (List Char)
  | '\n' :: rest => some rest
  | '\r' :: '\n' :: rest => some rest
  | _ => none

/-- Skips blanks, line ends and comments that a line end follows. `fuel` bounds the number of
lines. -/
def skipLines : (fuel : Nat) → List Char → List Char
  | 0, cs => cs
  | fuel + 1, cs =>
    let cs := skipSpace cs
    match lineEnd? (skipComment cs) with
    | some rest => skipLines fuel rest
    | none => cs

/-! ## Keys -/

/-- Whether a character may stand in a key without quotes. -/
def isKeyChar (c : Char) : Bool := c.isAlphanum || c == '_' || c == '-'

/-- Reads one part of a key. -/
def readKeyPart (cs : List Char) : Option (String × List Char) :=
  match cs with
  | '"' :: _ => readLineString cs
  | '\'' :: _ => readLineString cs
  | _ =>
    let part := cs.takeWhile isKeyChar
    if part.isEmpty then none else some (String.ofList part, cs.dropWhile isKeyChar)

/-- Reads a key of parts separated by points, with the blanks around it. `fuel` bounds the number of
parts. -/
def readKey : (fuel : Nat) → Reader (List String)
  | 0, _ => none
  | fuel + 1, cs => do
    let (part, rest) ← readKeyPart (skipSpace cs)
    match skipSpace rest with
    | '.' :: rest =>
      let (more, rest) ← readKey fuel rest
      some (part :: more, rest)
    | rest => some ([part], rest)

/-- The largest number of parts a key may have. -/
def keyPartLimit : Nat := 79

/-! ## Values -/

/-- Reads a key, an equals sign and a value. -/
def readPair (value : Reader Datum) : Reader (List String × Datum) := fun cs => do
  let (key, rest) ← readKey keyPartLimit cs
  match rest with
  | '=' :: rest =>
    let (d, rest) ← value (skipSpace rest)
    some ((key, d), rest)
  | _ => none

/-- Reads the items of a list behind its opening bracket; a comma may follow the last one. `fuel`
bounds their number. -/
def readItems (value : Reader Datum) : (fuel : Nat) → Reader (List Datum)
  | 0, _ => none
  | fuel + 1, cs =>
    match skipLines cs.length cs with
    | ']' :: rest => some ([], rest)
    | cs => do
      let (d, rest) ← value cs
      match skipLines rest.length rest with
      | ',' :: rest =>
        let (more, rest) ← readItems value fuel rest
        some (d :: more, rest)
      | ']' :: rest => some ([d], rest)
      | _ => none

/-- Reads the pairs of a table on one line behind its opening brace; there is at least one. `fuel`
bounds their number. -/
def readPairs (value : Reader Datum) : (fuel : Nat) → Reader (List (List String × Datum))
  | 0, _ => none
  | fuel + 1, cs => do
    let (pair, rest) ← readPair value cs
    match skipSpace rest with
    | ',' :: rest =>
      let (more, rest) ← readPairs value fuel rest
      some (pair :: more, rest)
    | '}' :: rest => some ([pair], rest)
    | _ => none

/-- Reads a value whose first character is next. `depth` is the number of brackets that may still be
opened, counting the value itself. -/
def readValue : (depth : Nat) → Reader Datum
  | 0, _ => none
  | depth + 1, cs =>
    match cs with
    | '"' :: _ => (readString cs).map fun (s, rest) => (.text s, rest)
    | '\'' :: _ => (readString cs).map fun (s, rest) => (.text s, rest)
    | '[' :: rest =>
      if depth = 0 then none
      else (readItems (readValue depth) rest.length rest).map fun (items, rest) =>
        (.list items, rest)
    | '{' :: rest =>
      if depth = 0 then none
      else match skipSpace rest with
        | '}' :: rest => some (.inlineTable [], rest)
        | rest => do
          let (pairs, rest) ← readPairs (readValue depth) rest.length rest
          let entries ← pairs.foldlM (fun entries (key, d) => Node.set key d false entries) []
          some (.inlineTable (Node.toEntries true entries), rest)
    | _ => Scalar.read cs

/-- The number of brackets that may be open at once, plus one. -/
def depthLimit : Nat := 80

/-! ## Lines -/

/-- What a line says. -/
inductive Line
  /-- A key is set. -/
  | pair (key : List String) (value : Datum)
  /-- A table is opened. -/
  | table (key : List String)
  /-- A table is added to a row of tables and opened. -/
  | item (key : List String)

/-- Reads the line that starts with the next character, up to its end or its comment. -/
def readLine (cs : List Char) : Option (Line × List Char) :=
  match cs with
  | '[' :: '[' :: rest => do
    let (key, rest) ← readKey keyPartLimit rest
    match rest with
    | ']' :: ']' :: rest => some (.item key, rest)
    | _ => none
  | '[' :: rest => do
    let (key, rest) ← readKey keyPartLimit rest
    match rest with
    | ']' :: rest => some (.table key, rest)
    | _ => none
  | _ => (readPair (readValue depthLimit) cs).map fun ((key, d), rest) => (.pair key d, rest)

/-- Reads the lines of a text. `fuel` bounds their number. -/
def readLines : (fuel : Nat) → List Char → Option (List Line)
  | 0, _ => none
  | fuel + 1, cs =>
    match skipComment (skipLines cs.length cs) with
    | [] => some []
    | cs@(c :: _) => do
      -- a comment that ends neither at a line end nor at the end of the text holds a bad character
      if !isTextChar c then none
      let (line, rest) ← readLine cs
      match skipComment (skipSpace rest) with
      | [] => some [line]
      | rest => (readLines fuel (← lineEnd? rest)).map (line :: ·)

/-- The lines of a text; a byte order mark may stand in front. -/
def readLines? (s : String) : Option (List Line) :=
  let cs := s.toList
  let cs := if cs.head? = some '\ufeff' then cs.tail else cs
  readLines (cs.length + 1) cs

end AdaptiveBatch.Toml
