import ScopedWhile.Execution.Run
import ScopedWhile.Proofs.Language.Site

/-!
Rules of execution without a limit on loops, each with the steps that it takes. Steps know the place
in the program where they happen, so that what a run does can be compared with the text of the
program.
-/

namespace ScopedWhile

/-- What happens in an execution. The chain is the one that the step finds, or that it leaves where
it changes the current level. -/
inductive Step where
  | entered (site : Site) (stmt : Stmt) (chain : Chain)
  /-- The statement at a place evaluates its value or its test. -/
  | evaluated (site : Site) (e : Expr) (chain : Chain)
  | declared (name : String) (value : Value) (chain : Chain)
  | assigned (name : String) (value : Value) (chain : Chain)
  /-- A printed value is handed to the sink, which may refuse it. -/
  | emitted (value : Value)
  | merged (chain : Chain)

/-- The event that records a step; some steps leave no record. -/
def Step.event? : Step → Option Event
  | .entered _ stmt chain => some (.entered stmt chain)
  | .declared name _ chain => some (.declared name chain)
  | .assigned name _ chain => some (.assigned name chain)
  | .merged chain => some (.merged chain)
  | .evaluated _ _ _ | .emitted _ => none

/-- What a statement can read and change. -/
structure Config (σ : Type) where
  level : Level
  output : σ

def Config.chain {σ : Type} (c : Config σ) (outer : List Level) : Chain :=
  { level := c.level, outer }

/-- Parts of a program that are executed as a whole. -/
inductive Code where
  | stmt (stmt : Stmt)
  /-- What a statement does once it is entered; for a loop, its remaining rounds. -/
  | action (stmt : Stmt)
  /-- A block of the statement at the place. -/
  | block (body : List Stmt)
  /-- The statements from the place to the end of its block. -/
  | rest (stmts : List Stmt)

/-- The truth of a test, which must be a boolean. -/
def Chain.test (chain : Chain) (kind : StmtKind) (condition : Expr) : Except Fault Bool :=
  match chain.evaluate condition with
  | .error fault => .error fault
  | .ok (.boolean b) => .ok b
  | .ok (.number _) => .error (.nonBooleanTest kind.tag)

/-- How a print ends, by what the sink says. -/
def Outcome.ofRefusal : Option Halt → Outcome
  | none => .completed
  | some cause => .halted cause

/-- `Runs sink code site outer c steps outcome c'`: started at a place in a configuration, with the
levels `outer` around the current one, code takes these steps and ends in `c'`. -/
inductive Runs {σ : Type} (sink : Sink σ)
    : Code → Site → List Level → Config σ → List Step → Outcome → Config σ → Prop where
  | enter {stmt site outer c steps outcome c'}
    (acts : Runs sink (.action stmt) site outer c steps outcome c')
    : Runs sink (.stmt stmt) site outer c (.entered site stmt (c.chain outer) :: steps) outcome c'
  | duplicate {name value site outer c} (bound : name ∈ c.level.names)
    : Runs sink (.action (.declare name value)) site outer c []
        (.halted (.fault (.duplicateDeclaration name))) c
  | declareFault {name value site outer c fault} (fresh : name ∉ c.level.names)
    (fails : (c.chain outer).evaluate value = .error fault)
    : Runs sink (.action (.declare name value)) site outer c
        [.evaluated site value (c.chain outer)] (.halted (.fault fault)) c
  | declare {name value site outer c v c'} (fresh : name ∉ c.level.names)
    (gives : (c.chain outer).evaluate value = .ok v)
    (next : c' = { c with level := c.level.set name v.toDatum })
    : Runs sink (.action (.declare name value)) site outer c
        [.evaluated site value (c.chain outer), .declared name v (c'.chain outer)] .completed c'
  | undeclared {name value site outer c} (free : name ∉ c.level.names)
    : Runs sink (.action (.assign name value)) site outer c []
        (.halted (.fault (.undeclaredAssignment name))) c
  | assignFault {name value site outer c fault} (bound : name ∈ c.level.names)
    (fails : (c.chain outer).evaluate value = .error fault)
    : Runs sink (.action (.assign name value)) site outer c
        [.evaluated site value (c.chain outer)] (.halted (.fault fault)) c
  | assign {name value site outer c v c'} (bound : name ∈ c.level.names)
    (gives : (c.chain outer).evaluate value = .ok v)
    (next : c' = { c with level := c.level.set name v.toDatum })
    : Runs sink (.action (.assign name value)) site outer c
        [.evaluated site value (c.chain outer), .assigned name v (c'.chain outer)] .completed c'
  | printFault {value site outer c fault}
    (fails : (c.chain outer).evaluate value = .error fault)
    : Runs sink (.action (.print value)) site outer c
        [.evaluated site value (c.chain outer)] (.halted (.fault fault)) c
  | print {value site outer c v output refusal}
    (gives : (c.chain outer).evaluate value = .ok v)
    (emits : sink.emit v.toDatum c.output = (output, refusal))
    : Runs sink (.action (.print value)) site outer c
        [.evaluated site value (c.chain outer), .emitted v]
        (.ofRefusal refusal) { c with output }
  | branchFault {condition whenTrue whenFalse site outer c fault}
    (fails : (c.chain outer).test .branch condition = .error fault)
    : Runs sink (.action (.branch condition whenTrue whenFalse)) site outer c
        [.evaluated site condition (c.chain outer)] (.halted (.fault fault)) c
  | branch {condition whenTrue whenFalse site outer c b steps outcome c'}
    (gives : (c.chain outer).test .branch condition = .ok b)
    (chosen : Runs sink (.block (if b then whenTrue else whenFalse)) site outer c steps outcome c')
    : Runs sink (.action (.branch condition whenTrue whenFalse)) site outer c
        (.evaluated site condition (c.chain outer) :: steps) outcome c'
  | loopFault {condition body site outer c fault}
    (fails : (c.chain outer).test .loop condition = .error fault)
    : Runs sink (.action (.loop condition body)) site outer c
        [.evaluated site condition (c.chain outer)] (.halted (.fault fault)) c
  | loopEnd {condition body site outer c}
    (gives : (c.chain outer).test .loop condition = .ok false)
    : Runs sink (.action (.loop condition body)) site outer c
        [.evaluated site condition (c.chain outer)] .completed c
  | loopStopped {condition body site outer c steps outcome c'}
    (gives : (c.chain outer).test .loop condition = .ok true)
    (round : Runs sink (.block body) site outer c steps outcome c')
    (stops : outcome ≠ .completed)
    : Runs sink (.action (.loop condition body)) site outer c
        (.evaluated site condition (c.chain outer) :: steps) outcome c'
  | loopAgain {condition body site outer c first c₁ later outcome c'}
    (gives : (c.chain outer).test .loop condition = .ok true)
    (round : Runs sink (.block body) site outer c first .completed c₁)
    (again : Runs sink (.action (.loop condition body)) site outer c₁ later outcome c')
    : Runs sink (.action (.loop condition body)) site outer c
        (.evaluated site condition (c.chain outer) :: (first ++ later)) outcome c'
  /-- A loop may be given up before any of its tests. -/
  | loopCut {condition body site outer c}
    : Runs sink (.action (.loop condition body)) site outer c [] .unfinished c
  | block {body site outer c steps inner c'}
    (runs : Runs sink (.rest body) site.inside (c.level :: outer) c steps .completed inner)
    (next : c' = { inner with level := c.level.mergeBack inner.level })
    : Runs sink (.block body) site outer c (steps ++ [.merged (c'.chain outer)]) .completed c'
  | blockStopped {body site outer c steps outcome inner c'}
    (runs : Runs sink (.rest body) site.inside (c.level :: outer) c steps outcome inner)
    (stops : outcome ≠ .completed) (next : c' = { inner with level := c.level })
    : Runs sink (.block body) site outer c steps outcome c'
  | nil {site outer c}
    : Runs sink (.rest []) site outer c [] .completed c
  | stopped {stmt rest site outer c steps outcome c'}
    (runs : Runs sink (.stmt stmt) site outer c steps outcome c')
    (stops : outcome ≠ .completed)
    : Runs sink (.rest (stmt :: rest)) site outer c steps outcome c'
  | next {stmt rest site outer c first c₁ later outcome c'}
    (runs : Runs sink (.stmt stmt) site outer c first .completed c₁)
    (others : Runs sink (.rest rest) (site.after stmt) outer c₁ later outcome c')
    : Runs sink (.rest (stmt :: rest)) site outer c (first ++ later) outcome c'

/-- The runs of a program from the empty root. -/
def Program.Runs {σ : Type} (p : Program) (sink : Sink σ) (output : σ) (steps : List Step)
    (outcome : Outcome) (c : Config σ) : Prop :=
  ScopedWhile.Runs sink (.rest p.statements) .top [] { level := .empty, output } steps outcome c

end ScopedWhile
