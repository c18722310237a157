/-! # Data read from text

Job graphs, scenarios and configuration are written in two formats. Both are first read into a
**`Datum`**, and the types of the job are decoded from that, so that a record is described once for
both.

* **`Datum.Dialect`** — what a format allows beyond that: what may be left over in a list that
  stands for a record or a table that stands for a case, and the payload of a case;
* **`Datum.Fields`** — the fields of a record, from a table or, in their order, from a list;
* **`Fields.required`**, **`Fields.optional`**, **`Fields.defaulted`** — decoders of one field. -/

namespace AdaptiveBatch

/-- A value as a text format gives it. -/
inductive Datum
  /-- The explicit absence of a value. -/
  | null
  /-- A truth value. -/
  | bool (b : Bool)
  /-- An integer of at most 64 bits. -/
  | int (n : Int)
  /-- Any other number. -/
  | float (x : Float)
  /-- A text. -/
  | text (s : String)
  /-- Values in a row. -/
  | list (items : List Datum)
  /-- Named values in the order of the text. -/
  | table (entries : List (String × Datum))
  /-- Named values that are written in one piece where others may stand on lines of their own. -/
  | inlineTable (entries : List (String × Datum))
  /-- What is well formed and denotes no value: a number too large, a text with half of a character,
  a table with such a name. -/
  | unrepresentable

namespace Datum

instance : Inhabited Datum := ⟨null⟩

/-- What a format allows where records and cases are decoded. -/
structure Dialect where
  /-- Whether elements may be left over in a list that stands for a record, and entries behind the
  first one in a table that stands for a case, unless it is written in one piece. -/
  surplusAllowed : Bool
  /-- Whether a value may stand behind the name of a case that carries nothing. -/
  isEmptyPayload : Datum → Bool

/-! ## Simple values -/

/-- A text. -/
def asText? : Datum → Option String
  | text s => some s
  | _ => none

/-- A truth value. -/
def asBool? : Datum → Option Bool
  | bool b => some b
  | _ => none

/-- A natural number below `limit`. -/
def asNat? (limit : Nat) : Datum → Option Nat
  | int n => if 0 ≤ n ∧ n < limit then some n.toNat else none
  | _ => none

/-- A number; an integer is converted. -/
def asFloat? : Datum → Option Float
  | float x => some x
  | int n => some (if n < 0 then -n.natAbs.toUInt64.toFloat else n.toNat.toUInt64.toFloat)
  | _ => none

/-- A value or its explicit absence. -/
def asNullable? {α : Type} (decode : Datum → Option α) : Datum → Option (Option α)
  | null => some none
  | d => (decode d).map some

/-- A row of values of one kind. -/
def asList? {α : Type} (decode : Datum → Option α) : Datum → Option (List α)
  | list items => items.mapM decode
  | _ => none

/-- Named values in the order of the text, however they are written. -/
def entries? : Datum → Option (List (String × Datum))
  | table entries => some entries
  | inlineTable entries => some entries
  | _ => none

/-- Values of one kind by name, in the order of the text. -/
def asTable? {α : Type} (decode : Datum → Option α) (d : Datum) : Option (List (String × α)) := do
  (← d.entries?).mapM fun entry => (decode entry.2).map (entry.1, ·)

/-- One of several cases by name. The name may also stand in a table, in front of an empty payload;
it comes first there, and alone if the dialect allows nothing to be left over. -/
def asCase? {α : Type} (dialect : Dialect) (case? : String → Option α) : Datum → Option α
  | text s => case? s
  | inlineTable [(name, payload)] => ofEntry name payload
  | table ((name, payload) :: rest) =>
    if rest.isEmpty || dialect.surplusAllowed then ofEntry name payload else none
  | _ => none
where
  /-- The case with a name and a payload. -/
  ofEntry (name : String) (payload : Datum) : Option α :=
    if dialect.isEmptyPayload payload then case? name else none

/-! ## Records -/

/-- A field of a record before it is decoded. -/
inductive Field
  /-- The field has a value. -/
  | present (d : Datum)
  /-- A table does not name the field. -/
  | absent
  /-- A list ends before the field. -/
  | cutOff

/-- The fields of a record by name. -/
abbrev Fields := String → Field

/-- The fields with the given names: from a table that names none of them twice, or from a list that
gives their values in order. Other names are ignored. -/
def fields? (dialect : Dialect) (names : List String) : Datum → Option Fields
  | list items =>
    if items.length ≤ names.length ∨ dialect.surplusAllowed then
      some fun name => match (names.zip items).lookup name with
        | some d => .present d
        | none => .cutOff
    else none
  | d => do
    let entries ← d.entries?
    let known := (entries.map Prod.fst).filter (names.contains ·)
    if known.Nodup then
      some fun name => match entries.lookup name with
        | some d => .present d
        | none => .absent
    else none

namespace Fields

/-- A field that must have a value. -/
def required {α : Type} (fields : Fields) (name : String) (decode : Datum → Option α) : Option α :=
  match fields name with
  | .present d => decode d
  | _ => none

/-- A field that a table may omit and that may be null; a list must reach it. -/
def optional {α : Type} (fields : Fields) (name : String) (decode : Datum → Option α) :
    Option (Option α) :=
  match fields name with
  | .present d => d.asNullable? decode
  | .absent => some none
  | .cutOff => none

/-- A field with a default, which holds when the field has no value. -/
def defaulted {α : Type} (fields : Fields) (name : String) (default : α)
    (decode : Datum → Option α) : Option α :=
  match fields name with
  | .present d => decode d
  | _ => some default

end Fields

end Datum

end AdaptiveBatch
