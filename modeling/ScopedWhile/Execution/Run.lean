import ScopedWhile.Document.Loading
import ScopedWhile.Execution.Stmt

/-!
Running whole programs from an empty root level. The program is resolved before the output, so
that a bad program with a bad output reports the program.
-/

namespace ScopedWhile

/-- Executes a program from the empty root. -/
def Program.exec {σ : Type} (p : Program) (s : Setting σ) (output : σ) : Result σ :=
  Stmt.execAll s p.statements [] { level := .empty, output }

/-- What a caller asks to run. -/
inductive RunTarget where
  | program (loaded : Checked Program)
  | trees (nodes : Checked (List Node))
  /-- A datum that should be a list of statement nodes. -/
  | datum (d : Datum)

/-- The type of what was given in place of a program. -/
structure RunTarget.Unsuitable where
  typeName : String
deriving DecidableEq

def RunTarget.Unsuitable.message (cause : RunTarget.Unsuitable) : String :=
  "run() expects a Program or a list of statements, got " ++ cause.typeName

inductive RunError where
  | invalid (issues : List Issue)
  | target (cause : RunTarget.Unsuitable)
  | output (cause : Output.Unsuitable)
  | halted (cause : Halt)
  | unfinished

/-- Who writes a log entry: the run as a whole, or the execution of its statements. -/
inductive LogSource where
  | run
  | statement
deriving DecidableEq

structure LogEntry where
  source : LogSource
  message : String
deriving DecidableEq

structure RunReport where
  /-- The root level at the end of a run that completes. -/
  ending : Except RunError Level
  transcript : Transcript
  log : List LogEntry

/-- The program that a target stands for. -/
def RunTarget.resolve : RunTarget → Except RunError Program
  | .program loaded => loaded.mapError .invalid
  | .trees nodes => (nodes.bind Program.ofTrees).mapError .invalid
  | .datum (.list items) => (Program.ofNodes (.list items)).mapError .invalid
  | .datum (.tuple items) => (Program.ofNodes (.list items)).mapError .invalid
  | .datum d => .error (.target { typeName := d.typeName })

namespace Run

/-- A level that holds no scopes as data. -/
def levelText (level : Level) : String :=
  level.render fun _ => ""

def starting (p : Program) : LogEntry where
  source := .run
  message := "running " ++ toString p.statements.length ++ " top-level statements"

def ending (level : Level) : LogEntry where
  source := .run
  message := "final state: " ++ levelText level

/-- The log entries of a history of events. -/
def entries (history : List Event) : List LogEntry :=
  history.filterMap fun event =>
    (event.message? fun chain => levelText chain.level).map fun message =>
      { source := .statement, message }

end Run

/-- Runs a target with an output; the log is kept only when `recording`. -/
def run (target : RunTarget) (output : Output) (recording : Bool) (limit : Nat) : RunReport :=
  let logged (entries : List LogEntry) := if recording then entries else []
  match target.resolve with
  | .error cause => { ending := .error cause, transcript := {}, log := [] }
  | .ok p => match output.resolve with
    | .error cause =>
        { ending := .error (.output cause), transcript := {}, log := logged [Run.starting p] }
    | .ok channel =>
        let (outcome, m) := p.exec { sink := channel.sink, recording, limit } {}
        let history := Run.starting p :: Run.entries m.history.toList
        match outcome with
        | .completed =>
            { ending := .ok m.level
              transcript := m.output
              log := logged (history ++ [Run.ending m.level]) }
        | .halted cause =>
            { ending := .error (.halted cause), transcript := m.output, log := logged history }
        | .unfinished =>
            { ending := .error .unfinished, transcript := m.output, log := logged history }

end ScopedWhile
