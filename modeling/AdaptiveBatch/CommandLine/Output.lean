import AdaptiveBatch.CommandLine.Arguments
import AdaptiveBatch.CommandLine.Files
import AdaptiveBatch.Config.Resolve
import AdaptiveBatch.Json.Printer
import AdaptiveBatch.Plan
import AdaptiveBatch.Simulation.Report

/-! # Carrying out commands

A command reads its files, works, and ends with a code, what it writes, and the error it reports.

* **`Output`** — the end of a command;
* **`Command.execute`** — a command, given a way to read files;
* **`Output.ofRefusal`** — arguments that are not carried out. -/

namespace AdaptiveBatch

/-- The end of a command. -/
@[ext] structure Output where
  /-- The exit code. -/
  code : Nat := 0
  /-- What is written. -/
  text : String := ""
  /-- The error that is reported. -/
  error : Option String := none
deriving DecidableEq, Repr

namespace Output

/-- The program and its version. -/
def version : String := "ebbd 0.1.0\n"

/-- How the program is used. -/
def usage : String :=
  "Usage: ebbd [--log-json] <check-config | plan | simulate> [OPTIONS]\n\n" ++
    "  check-config --config <CONFIG>\n" ++
    "  plan [--config <CONFIG>] --job <JOB> [--slots <SLOTS>] [--format <text | json>]\n" ++
    "  simulate [--config <CONFIG>] --scenario <SCENARIO> [--format <text | json>]\n"

/-- An error. -/
def failure (message : String) : Output := { code := 1, error := some message }

/-- A computation that was abandoned. -/
def abandoned (_ : Overflow) : Output := { code := 101 }

/-- The end of arguments that are not carried out. -/
def ofRefusal : Refusal → Output
  | .misuse => { code := 2 }
  | .help => { text := usage }
  | .version => { text := version }

end Output

/-- A step of a command: a value, or the end of the command. -/
abbrev Stage := Except Output

namespace Stage

/-- The configuration of a computation that may be refused or abandoned. -/
def ofResolved {α : Type} (r : Config.Resolved α) : Stage α :=
  match r.run with
  | .ok (.ok a) => .ok a
  | .ok (.error e) => .error (.failure e.message)
  | .error o => .error (.abandoned o)

/-- The configuration in a file. -/
def config (read : FileReader) (path : String) : Stage Config :=
  match read path with
  | .error reason => .error (.failure (ConfigError.unreadable path reason.message).message)
  | .ok text => ofResolved (Config.parse text)

/-- The configuration in a file, or the standard one when none is given. -/
def configOrStandard (read : FileReader) : Option String → Stage Config
  | some path => config read path
  | none => .ok Config.standard

/-- What is read from a file, with the kind of its content named in errors. -/
def content {α : Type} (read : FileReader) (kind path : String) (parse : String → Option α) :
    Stage α :=
  match read path with
  | .error _ => .error (.failure s!"reading {kind} {path}")
  | .ok text => match parse text with
    | some a => .ok a
    | none => .error (.failure s!"parsing {kind} {path}")

/-- The value of a computation that may be interrupted. -/
def ofInterrupted {α : Type} : Except Interruption α → Stage α
  | .ok a => .ok a
  | .error (.refused e) => .error (.failure e.message)
  | .error (.abandoned o) => .error (.abandoned o)

end Stage

/-- A value as JSON or in words. -/
def OutputFormat.write (f : OutputFormat) (data : Datum) (words : String) : String :=
  match f with
  | .json => Json.pretty data ++ "\n"
  | .text => words

namespace Command

/-- The steps of a command. -/
def stages (read : FileReader) : Command → Stage Output
  | checkConfig path => do
    let c ← Stage.config read path
    pure { text := c.render }
  | plan config job slots format => do
    let c ← Stage.configOrStandard read config
    let job ← Stage.content read "job graph" job JobGraph.parse?
    let p ← Stage.ofInterrupted (planJob c job slots)
    pure { text := format.write p.toDatum p.format }
  | simulate config scenario format => do
    let c ← Stage.configOrStandard read config
    let s ← Stage.content read "scenario" scenario fun text => (Scenario.parse text).toOption
    match (s.simulate c).run with
    | .error o => .error (.abandoned o)
    | .ok (.error e) => .error (.failure e.message)
    | .ok (.ok r) =>
      pure { code := if r.error.isSome then 1 else 0, text := format.write r.toDatum r.format }

/-- The end of a command. -/
def execute (read : FileReader) (c : Command) : Output :=
  match c.stages read with
  | .ok output => output
  | .error output => output

end Command

/-- The end of the program with the given arguments. -/
def Output.ofArguments (read : FileReader) (arguments : List String) : Output :=
  match Command.parse arguments with
  | .ok c => c.execute read
  | .error r => .ofRefusal r

end AdaptiveBatch
