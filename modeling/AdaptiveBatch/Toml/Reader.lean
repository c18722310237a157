import AdaptiveBatch.Toml.Line

/-! # Reading TOML texts

The lines of a text fill a table: every header opens a table, and the keys below it are set there.

* **`Toml.read?`** reads a text; **`Toml.dialect`** — lists that stand for records and tables that
  stand for cases may have something left over, and the payload of a case is an empty table or
  list. -/

namespace AdaptiveBatch.Toml

/-- TOML as a source of records. -/
def dialect : Datum.Dialect where
  surplusAllowed := true
  isEmptyPayload
    | .table [] => true
    | .inlineTable [] => true
    | .list [] => true
    | _ => false

/-- The text as far as it has been read. -/
structure Progress where
  /-- The finished tables. -/
  root : Entries
  /-- The key of the open table; empty for the outermost one. -/
  key : List String
  /-- Whether the open table is an item of a row. -/
  isItem : Bool
  /-- The entries of the open table. -/
  entries : Entries

namespace Progress

/-- Adds a finished table under a name that is free or holds a table made on the way. -/
def placeTable (name : String) (table : Entries) (entries : Entries) : Option Entries :=
  match entries.lookup name with
  | none => some (entries ++ [(name, .table false false table)])
  | some (.table true _ _) => some (Node.replace name (.table false false table) entries)
  | some _ => none

/-- Adds a finished table to the row under a name. -/
def placeItem (name : String) (table : Entries) (entries : Entries) : Option Entries :=
  match entries.lookup name with
  | none => some (entries ++ [(name, .row [table])])
  | some (.row tables) => some (Node.replace name (.row (tables ++ [table])) entries)
  | some _ => none

/-- Puts the open table into its place. -/
def close (p : Progress) : Option Entries :=
  match p.key.getLast? with
  | none => some p.entries
  | some name =>
    let place := if p.isItem then placeItem name p.entries else placeTable name p.entries
    Node.descend false (fun _ entries => place entries) p.key.dropLast false p.root

/-- Opens a table: a new one, or one that was made on the way to another by a header. -/
def openTable (root : Entries) (key : List String) : Option Progress := do
  let name ← key.getLast?
  let root ← Node.descend false (fun _ entries => some entries) key.dropLast false root
  let parent ← parentEntries root key.dropLast
  match parent.lookup name with
  | none => some { root, key, isItem := false, entries := [] }
  | some (.table true false sub) =>
    let root ←
      Node.descend false (fun _ entries => some (Node.erase name entries)) key.dropLast false root
    some { root, key, isItem := false, entries := sub }
  | some _ => none
where
  /-- The entries of the table that a key reaches. -/
  parentEntries (entries : Entries) : List String → Option Entries
    | [] => some entries
    | name :: rest =>
      match entries.lookup name with
      | some (.table _ _ sub) => parentEntries sub rest
      | some (.row tables) => tables.getLast?.bind (parentEntries · rest)
      | _ => none

/-- Opens a new item of a row of tables. -/
def openItem (root : Entries) (key : List String) : Option Progress := do
  let name ← key.getLast?
  let root ← Node.descend false
    (fun _ entries =>
      match entries.lookup name with
      | none => some entries
      | some (.row _) => some entries
      | some _ => none)
    key.dropLast false root
  some { root, key, isItem := true, entries := [] }

/-- Takes in one line. -/
def step (p : Progress) : Line → Option Progress
  | .pair key d => do
    let entries ← Node.set key d false p.entries
    some { p with entries }
  | .table key => do openTable (← p.close) key
  | .item key => do openItem (← p.close) key

end Progress

/-- The table of a text. -/
def read? (s : String) : Option Datum := do
  let lines ← readLines? s
  let p ← lines.foldlM Progress.step { root := [], key := [], isItem := false, entries := [] }
  let root ← p.close
  some (.table (Node.toEntries false root))

end AdaptiveBatch.Toml
