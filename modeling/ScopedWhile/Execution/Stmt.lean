import ScopedWhile.Evaluation.Expr
import ScopedWhile.Execution.Event
import ScopedWhile.Execution.Sink

/-!
Execution of statements. A block runs on a copy of the current level inside of it, and at its end
the level takes over the values that the copy has for its own names. What halts inside a block
leaves the level around it as it was before the block, and a loop as it was after the last
finished round.
-/

namespace ScopedWhile

/-- What an execution changes. -/
structure Machine (σ : Type) where
  level : Level
  output : σ
  history : Array Event := #[]

/-- What an execution is given and does not change. -/
structure Setting (σ : Type) where
  sink : Sink σ
  /-- Whether events are recorded. -/
  recording : Bool
  /-- How many rounds a loop may make before it counts as unfinished. -/
  limit : Nat

inductive Outcome where
  | completed
  | halted (cause : Halt)
  /-- A loop has used up its rounds. -/
  | unfinished
deriving DecidableEq

abbrev Result (σ : Type) := Outcome × Machine σ

namespace Machine

variable {σ : Type}

def chain (m : Machine σ) (outer : List Level) : Chain :=
  { level := m.level, outer }

def record (m : Machine σ) (s : Setting σ) (event : Event) : Machine σ :=
  if s.recording then { m with history := m.history.push event } else m

def fail (m : Machine σ) (fault : Fault) : Result σ :=
  (.halted (.fault fault), m)

/-- Binds a new name. A name that the current level binds already is refused before the value is
evaluated. -/
def declare (s : Setting σ) (outer : List Level) (name : String) (value : Expr) (m : Machine σ)
    : Result σ :=
  if m.level.contains name then m.fail (.duplicateDeclaration name)
  else match (m.chain outer).evaluate value with
    | .error fault => m.fail fault
    | .ok v =>
        let m := { m with level := m.level.set name v.toDatum }
        (.completed, m.record s (.declared name (m.chain outer)))

/-- Changes the value of a name that the current level binds, which is checked before the value is
evaluated. -/
def assign (s : Setting σ) (outer : List Level) (name : String) (value : Expr) (m : Machine σ)
    : Result σ :=
  if m.level.contains name then
    match (m.chain outer).evaluate value with
    | .error fault => m.fail fault
    | .ok v =>
        let m := { m with level := m.level.set name v.toDatum }
        (.completed, m.record s (.assigned name (m.chain outer)))
  else m.fail (.undeclaredAssignment name)

/-- Evaluates the test of a branch or loop, which must be a boolean. -/
def test (outer : List Level) (kind : StmtKind) (condition : Expr) (m : Machine σ)
    : Except Fault Bool :=
  match (m.chain outer).evaluate condition with
  | .error fault => .error fault
  | .ok (.boolean b) => .ok b
  | .ok (.number _) => .error (.nonBooleanTest kind.tag)

def print (s : Setting σ) (outer : List Level) (value : Expr) (m : Machine σ) : Result σ :=
  match (m.chain outer).evaluate value with
  | .error fault => m.fail fault
  | .ok v => match s.sink.emit v.toDatum m.output with
    | (output, none) => (.completed, { m with output })
    | (output, some cause) => (.halted cause, { m with output })

/-- Runs a block inside the current level and merges it back; a block that does not complete
leaves the level unchanged. -/
def block (s : Setting σ) (outer : List Level) (body : List Level → Machine σ → Result σ)
    (m : Machine σ) : Result σ :=
  match body (m.level :: outer) m with
  | (.completed, inner) =>
      let m := { inner with level := m.level.mergeBack inner.level }
      (.completed, m.record s (.merged (m.chain outer)))
  | (outcome, inner) => (outcome, { inner with level := m.level })

/-- Repeats a body while a test holds, for at most the given number of tests. -/
def iterate (test : Machine σ → Except Fault Bool) (body : Machine σ → Result σ)
    : Nat → Machine σ → Result σ
  | 0, m => (.unfinished, m)
  | rounds + 1, m => match test m with
    | .error fault => m.fail fault
    | .ok false => (.completed, m)
    | .ok true => match body m with
      | (.completed, m) => iterate test body rounds m
      | stopped => stopped

end Machine

variable {σ : Type}

mutual

/-- Executes a statement at a level, with the levels around it, nearest first. -/
def Stmt.exec (s : Setting σ) : Stmt → List Level → Machine σ → Result σ
  | .declare name value, outer, m =>
      (m.record s (.entered (.declare name value) (m.chain outer))).declare s outer name value
  | .assign name value, outer, m =>
      (m.record s (.entered (.assign name value) (m.chain outer))).assign s outer name value
  | .branch condition whenTrue whenFalse, outer, m =>
      let m := m.record s (.entered (.branch condition whenTrue whenFalse) (m.chain outer))
      match m.test outer .branch condition with
      | .error fault => m.fail fault
      | .ok true => m.block s outer (Stmt.execAll s whenTrue)
      | .ok false => m.block s outer (Stmt.execAll s whenFalse)
  | .loop condition body, outer, m =>
      let m := m.record s (.entered (.loop condition body) (m.chain outer))
      Machine.iterate (Machine.test outer .loop condition)
        (Machine.block s outer (Stmt.execAll s body)) s.limit m
  | .print value, outer, m =>
      (m.record s (.entered (.print value) (m.chain outer))).print s outer value

/-- Executes statements one after another up to the first that does not complete. -/
def Stmt.execAll (s : Setting σ) : List Stmt → List Level → Machine σ → Result σ
  | [], _, m => (.completed, m)
  | stmt :: rest, outer, m => match stmt.exec s outer m with
    | (.completed, m) => Stmt.execAll s rest outer m
    | stopped => stopped

end

/-- Executes a node, which must be a statement. -/
def Node.exec (s : Setting σ) : Node → List Level → Machine σ → Result σ
  | .stmt statement, outer, m => statement.exec s outer m
  | .expr e, _, m => m.fail (.unsupportedStatement e.kind.tag)

def Node.execAll (s : Setting σ) : List Node → List Level → Machine σ → Result σ
  | [], _, m => (.completed, m)
  | node :: rest, outer, m => match node.exec s outer m with
    | (.completed, m) => Node.execAll s rest outer m
    | stopped => stopped

end ScopedWhile
