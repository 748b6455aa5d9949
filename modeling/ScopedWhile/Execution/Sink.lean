import ScopedWhile.Evaluation.Fault

/-!
Where printed data go. A sink takes one datum after another and may refuse one; the outputs that a
program can be given are resolved to channels, each of which is a sink over a transcript.
-/

namespace ScopedWhile

/-- What stops an execution before its end. -/
inductive Halt where
  | fault (cause : Fault)
  /-- The sink refuses a datum. -/
  | refused (reason : String)
deriving DecidableEq

def Halt.message : Halt → String
  | .fault cause => cause.message
  | .refused reason => reason

/-- Receives data one by one. Its state is kept also when it refuses. -/
structure Sink (σ : Type) where
  emit : Datum → σ → σ × Option Halt

/-- What a channel has received: data as they are, or their display as text. -/
structure Transcript where
  values : Array Datum := #[]
  text : String := ""

inductive Channel where
  /-- Keeps every datum. -/
  | collector
  /-- Writes one displayed value a line. -/
  | stream
  /-- Hands every datum to an object that receives it. -/
  | receiver
  /-- Hands every datum to a function, which may refuse all data after the first few. -/
  | function (capacity : Option Nat)
deriving DecidableEq

namespace Channel

private def keep (datum : Datum) (t : Transcript) : Transcript × Option Halt :=
  ({ t with values := t.values.push datum }, none)

def sink : Channel → Sink Transcript
  | .collector => { emit := keep }
  | .receiver => { emit := keep }
  | .stream =>
      { emit := fun datum t => match datum.display with
          | .ok text => ({ t with text := t.text ++ text ++ "\n" }, none)
          | .error fault => (t, some (.fault fault)) }
  | .function none => { emit := keep }
  | .function (some capacity) =>
      { emit := fun datum t =>
          if t.values.size < capacity then keep datum t
          else (t, some (.refused "sink failed")) }

/-- Whether a channel writes text. -/
def isText : Channel → Bool
  | .stream => true
  | _ => false

end Channel

/-- What a caller names as the output of a program. -/
inductive Output where
  | collector
  | stream
  /-- The standard output. -/
  | console
  | receiver
  | function (capacity : Option Nat)
  /-- Something that cannot receive data. -/
  | other (datum : Datum)

namespace Output

/-- The type of what was given in place of an output. -/
structure Unsuitable where
  typeName : String
deriving DecidableEq

def Unsuitable.message (cause : Unsuitable) : String :=
  "output must be an OutputSink, a callable or None, got " ++ cause.typeName

/-- The channel of an output: the standard output is written as a stream. -/
def resolve : Output → Except Unsuitable Channel
  | .collector => .ok .collector
  | .stream => .ok .stream
  | .console => .ok .stream
  | .receiver => .ok .receiver
  | .function capacity => .ok (.function capacity)
  | .other datum => .error { typeName := datum.typeName }

/-- Whether an output takes data by itself, without being wrapped. -/
def isSink : Output → Bool
  | .collector | .stream | .receiver => true
  | _ => false

end Output

end ScopedWhile
