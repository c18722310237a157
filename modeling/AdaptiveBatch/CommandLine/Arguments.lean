import AdaptiveBatch.Numeric.Word
import AdaptiveBatch.Text.Measure

/-! # Command-line arguments

There are three commands, each with options of its own, and `help`, which may name one of them. An
option is written `--name value` or `--name=value` and given at most once; `--log-json` may stand in
front of the command or behind it. Arguments are read from left to right, and the first one that is
wrong, or that asks for help or the version, decides.

* **`Command`** — what is asked for; **`Command.parse`** — the arguments;
* **`Parsed`**, **`Parsed.ofArguments`** — the options of a command. -/

namespace AdaptiveBatch

/-- How a result is written. -/
inductive OutputFormat
  /-- In words. -/
  | text
  /-- As JSON. -/
  | json
deriving DecidableEq, Repr

/-- What the program is asked to do. -/
inductive Command
  /-- To check a configuration file and write it out in full. -/
  | checkConfig (config : String)
  /-- To plan a job. -/
  | plan (config : Option String) (job : String) (slots : Option Nat) (format : OutputFormat)
  /-- To simulate a scenario. -/
  | simulate (config : Option String) (scenario : String) (format : OutputFormat)
deriving DecidableEq, Repr

/-- Why no command is carried out. -/
inductive Refusal
  /-- The arguments are wrong. -/
  | misuse
  /-- They ask for help. -/
  | help
  /-- They ask for the version. -/
  | version
deriving DecidableEq, Repr

/-! ## Options -/

/-- What an option accepts. -/
inductive OptionKind
  /-- Nothing: it is either given or not. -/
  | flag
  /-- The path of a file, which is not empty. -/
  | path
  /-- A 32-bit count, with a sign if need be. -/
  | count
  /-- Any text. -/
  | word
deriving DecidableEq, Repr

namespace OptionKind

/-- A 32-bit count; a sign may stand in front of it. -/
def count? (s : String) : Option Nat :=
  let signed : Bool × List Char := match s.toList with
    | '-' :: digits => (true, digits)
    | '+' :: digits => (false, digits)
    | digits => (false, digits)
  (Text.count? signed.2).filter fun n => decide (n < HalfWord.limit) && (!signed.1 || n == 0)

/-- Whether an option accepts a value. -/
def accepts (value : String) : OptionKind → Bool
  | flag => false
  | path => !value.isEmpty
  | count => (count? value).isSome
  | word => true

end OptionKind

/-- The options of a command by name. -/
abbrev OptionTable := List (String × OptionKind)

/-- The options that were given. -/
structure Parsed where
  /-- The flags. -/
  flags : List String := []
  /-- The values of the others. -/
  values : List (String × String) := []
deriving DecidableEq, Repr

namespace Parsed

/-- The options with one more value; it must be acceptable, and the first of its name. -/
def withValue (p : Parsed) (table : OptionTable) (name value : String) : Except Refusal Parsed :=
  match table.lookup name with
  | none => .error .misuse
  | some kind =>
    if kind.accepts value && (p.values.lookup name).isNone then
      .ok { p with values := p.values ++ [(name, value)] }
    else .error .misuse

/-- The options with one more flag, the first of its name. -/
def withFlag (p : Parsed) (name : String) : Except Refusal Parsed :=
  if name ∈ p.flags then .error .misuse else .ok { p with flags := p.flags ++ [name] }

/-- Whether an argument is written like an option, so that it is not taken for a value. -/
def isOptionLike (argument : String) : Bool :=
  match argument.toList with
  | ['-'] => false
  | '-' :: _ => true
  | _ => false

/-- An argument `--name` or `--name=value`. -/
def long? (argument : String) : Option (String × Option String) :=
  match argument.toList with
  | '-' :: '-' :: rest =>
    let name := String.ofList (rest.takeWhile (· ≠ '='))
    match rest.dropWhile (· ≠ '=') with
    | [] => some (name, none)
    | _ :: value => some (name, some (String.ofList value))
  | _ => none

/-- What an argument asks for that is not one of the options: help by its short name, or nothing. -/
def shortRefusal (argument : String) : Refusal :=
  match argument.toList with
  | '-' :: 'h' :: _ => .help
  | _ => .misuse

/-- Reads the options of a command. -/
def ofArguments (table : OptionTable) : List String → Parsed → Except Refusal Parsed
  | [], p => .ok p
  | argument :: rest, p =>
    match long? argument, rest with
    | none, _ => .error (shortRefusal argument)
    | some ("", none), [] => .ok p
    | some ("", none), _ :: _ => .error .misuse
    | some ("help", none), _ => .error .help
    | some (name, some value), rest => do ofArguments table rest (← p.withValue table name value)
    | some (name, none), rest =>
      match table.lookup name, rest with
      | none, _ => .error .misuse
      | some .flag, rest => do ofArguments table rest (← p.withFlag name)
      | some _, [] => .error .misuse
      | some _, value :: rest =>
        if isOptionLike value then .error .misuse
        else do ofArguments table rest (← p.withValue table name value)

/-- The value of an option. -/
def value? (p : Parsed) (name : String) : Option String := p.values.lookup name

/-- The value of an option that must be given. -/
def required (p : Parsed) (name : String) : Except Refusal String :=
  match p.value? name with
  | some value => .ok value
  | none => .error .misuse

/-- The format that is asked for. Everything but `json` means text. -/
def format (p : Parsed) : OutputFormat := if p.value? "format" = some "json" then .json else .text

end Parsed

/-! ## Commands -/

namespace Command

/-- The options of a command; none for an unknown one. -/
def options? : (name : String) → Option OptionTable
  | "check-config" => some [("log-json", .flag), ("config", .path)]
  | "plan" => some [("log-json", .flag), ("config", .path), ("job", .path), ("slots", .count),
      ("format", .word)]
  | "simulate" => some [("log-json", .flag), ("config", .path), ("scenario", .path),
      ("format", .word), ("realtime", .flag)]
  | _ => none

/-- The command with a name and options. -/
def ofParsed (name : String) (p : Parsed) : Except Refusal Command :=
  match name with
  | "check-config" => do pure (.checkConfig (← p.required "config"))
  | "plan" => do
    let slots := (p.value? "slots").bind OptionKind.count?
    pure (.plan (p.value? "config") (← p.required "job") slots p.format)
  | "simulate" => do pure (.simulate (p.value? "config") (← p.required "scenario") p.format)
  | _ => .error .misuse

/-- What `help` answers: help as such or on one command, which may be `help` itself. -/
def helpRefusal : (topics : List String) → Refusal
  | [] => .help
  | [topic] => if (options? topic).isSome || topic == "help" then .help else .misuse
  | _ => .misuse

/-- Reads the name of a command and its options. -/
def named (name : String) (arguments : List String) : Except Refusal Command :=
  match name, options? name with
  | _, some table => do ofParsed name (← Parsed.ofArguments table arguments {})
  | "help", none => .error (helpRefusal arguments)
  | _, none => .error .misuse

/-- What an argument in front of the command asks for: help or the version, or nothing. -/
def leadingRefusal (argument : String) : Refusal :=
  match argument.toList with
  | '-' :: 'h' :: _ => .help
  | '-' :: 'V' :: _ => .version
  | _ => if argument = "--help" then .help else if argument = "--version" then .version else .misuse

/-- Reads the arguments of the program. -/
def parse : List String → Except Refusal Command
  | [] => .error .misuse
  | "--log-json" :: rest =>
    match rest with
    | "--log-json" :: _ => .error .misuse
    | _ => parse rest
  | argument :: rest =>
    if Parsed.isOptionLike argument then .error (leadingRefusal argument)
    else named argument rest

/-- The files a command reads, in their order. -/
def paths : Command → List String
  | checkConfig config => [config]
  | plan config job _ _ => config.toList ++ [job]
  | simulate config scenario _ => config.toList ++ [scenario]

end Command

end AdaptiveBatch
