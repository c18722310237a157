import AdaptiveBatch.Datum

/-! # Tables under construction

While a TOML text is read, a table remembers how it came about, because that decides who may still
add to it: a table opened by a header belongs to that header, one made by a dotted key can be
extended by dotted keys only, and one made on the way to another can still be opened once.

* **`Node.descend`** follows a key and changes the table it reaches, making the tables on the way;
* **`Node.set`** sets a key that is not set; **`Node.toEntries`** forgets how the tables came
  about. -/

namespace AdaptiveBatch.Toml

/-- A value or a table under construction. -/
inductive Node
  /-- A finished value. -/
  | value (d : Datum)
  /-- A table: whether it was only made on the way to another, and whether a dotted key made it. -/
  | table (implicit dotted : Bool) (entries : List (String × Node))
  /-- A row of tables; the last one can be added to. -/
  | row (tables : List (List (String × Node)))

/-- The entries of a table under construction. -/
abbrev Entries := List (String × Node)

namespace Node

instance : Inhabited Node := ⟨value .null⟩

/-- The entries with the node under a name replaced. -/
def replace (name : String) (node : Node) (entries : Entries) : Entries :=
  entries.map fun (n, old) => if n = name then (n, node) else (n, old)

/-- The entries without a name. -/
def erase (name : String) (entries : Entries) : Entries :=
  entries.filter fun (n, _) => n ≠ name

/-- Changes the entries of the table reached by a key, given whether a dotted key made that table.
Tables are made on the way; a value in the way, or a table that dotted keys may not extend, stops
the descent. -/
def descend (dotted : Bool) (change : Bool → Entries → Option Entries) :
    List String → Bool → Entries → Option Entries
  | [], madeByKey, entries => change madeByKey entries
  | name :: key, _, entries =>
    match entries.lookup name with
    | none =>
      (descend dotted change key dotted []).map fun sub =>
        entries ++ [(name, table true dotted sub)]
    | some (value _) => none
    | some (row tables) =>
      match tables.getLast? with
      | none => none
      | some last =>
        (descend dotted change key false last).map fun sub =>
          replace name (row (tables.dropLast ++ [sub])) entries
    | some (table implicit madeByKey sub) =>
      if dotted && !implicit then none
      else (descend dotted change key madeByKey sub).map fun sub =>
        replace name (table implicit madeByKey sub) entries

/-- Sets a dotted key that is not set yet; all of its parts but the last lead to tables that dotted
keys made. -/
def set (key : List String) (d : Datum) (madeByKey : Bool) (entries : Entries) : Option Entries :=
  match key.getLast? with
  | none => none
  | some name =>
    let path := key.dropLast
    descend true
      (fun made entries =>
        if made = path.isEmpty ∨ (entries.lookup name).isSome then none
        else some (entries ++ [(name, value d)]))
      path madeByKey entries

mutual

/-- The finished value of a node, which may be part of a table written in one piece. -/
def toDatum (inlined : Bool) : Node → Datum
  | value d => d
  | table _ _ entries =>
    if inlined then .inlineTable (toEntries inlined entries) else .table (toEntries inlined entries)
  | row tables => .list (toRows tables)

/-- The finished entries of a table, which may be written in one piece. -/
def toEntries (inlined : Bool) : Entries → List (String × Datum)
  | [] => []
  | (name, node) :: rest => (name, toDatum inlined node) :: toEntries inlined rest

/-- The finished tables of a row. -/
def toRows : List Entries → List Datum
  | [] => []
  | entries :: rest => .table (toEntries false entries) :: toRows rest

end

end Node

end AdaptiveBatch.Toml
