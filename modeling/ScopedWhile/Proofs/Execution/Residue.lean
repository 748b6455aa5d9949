import ScopedWhile.Proofs.Execution.Adequacy

/-!
What a failed execution leaves behind. A statement that halts leaves the current level as it found
it, a loop as its last finished round has left it, and a list of statements as the failing one does
after those before it. The output is not taken back: it has received every value printed so far.
-/

namespace ScopedWhile

variable {σ : Type}

/-- `Rounds s outer condition body k m m'`: from `m`, the test holds and the block of the body
completes `k` times in a row, which leads to `m'`. -/
inductive Rounds (s : Setting σ) (outer : List Level) (condition : Expr) (body : List Stmt)
    : Nat → Machine σ → Machine σ → Prop where
  | none {m} : Rounds s outer condition body 0 m m
  | more {k m m₁ m'} (holds : m.test outer .loop condition = .ok true)
    (round : m.block s outer (Stmt.execAll s body) = (.completed, m₁))
    (others : Rounds s outer condition body k m₁ m')
    : Rounds s outer condition body (k + 1) m m'

/-- A test has failed and nothing has changed. -/
structure Machine.FailsTest (outer : List Level) (kind : StmtKind) (condition : Expr)
    (m : Machine σ) (cause : Halt) (m' : Machine σ) : Prop where
  config : m'.config = m.config
  fault : ∃ fault, m.test outer kind condition = .error fault ∧ cause = .fault fault

/-- A block has halted: the current level is untouched and the output is the one from inside. -/
structure Machine.HaltsIn (s : Setting σ) (outer : List Level) (block : List Stmt) (m : Machine σ)
    (cause : Halt) (m' : Machine σ) : Prop where
  level : m'.level = m.level
  output
    : ∃ inner,
        Stmt.execAll s block (m.level :: outer) m = (.halted cause, inner)
        ∧ m'.output = inner.output

/-- What a statement that was entered in `m` and halts for the given cause leaves behind. -/
def Stmt.Residue (s : Setting σ) (outer : List Level) (m : Machine σ) (cause : Halt)
    (m' : Machine σ) : Stmt → Prop
  | .declare _ _ | .assign _ _ => m'.config = m.config
  | .print value =>
      m'.level = m.level
      ∧ (m'.output = m.output
          ∧ (∃ fault, (m.chain outer).evaluate value = .error fault ∧ cause = .fault fault)
        ∨ ∃ v,
            (m.chain outer).evaluate value = .ok v
            ∧ s.sink.emit v.toDatum m.output = (m'.output, some cause))
  | .branch condition whenTrue whenFalse =>
      m.FailsTest outer .branch condition cause m'
      ∨ ∃ b,
          m.test outer .branch condition = .ok b
          ∧ m.HaltsIn s outer (if b then whenTrue else whenFalse) cause m'
  | .loop condition body =>
      ∃ k reached,
        Rounds s outer condition body k m reached
        ∧ (reached.FailsTest outer .loop condition cause m'
          ∨ (reached.test outer .loop condition = .ok true
            ∧ reached.HaltsIn s outer body cause m'))

-----------------------------------------------------------------------------------------
-- How statements halt
-----------------------------------------------------------------------------------------

section

variable {s : Setting σ} {outer : List Level} {m m' : Machine σ} {cause : Halt}

/-- A declaration that halts leaves level and output as they were. -/
theorem Machine.config_of_declare {name : String} {value : Expr}
    (halts : m.declare s outer name value = (.halted cause, m'))
    : m'.config = m.config := by
  simp only [declare] at halts
  split at halts
  · cases halts
    rfl
  · split at halts
    · cases halts
      rfl
    · cases halts

/-- An assignment that halts leaves level and output as they were. -/
theorem Machine.config_of_assign {name : String} {value : Expr}
    (halts : m.assign s outer name value = (.halted cause, m'))
    : m'.config = m.config := by
  simp only [assign] at halts
  split at halts
  · split at halts
    · cases halts
      rfl
    · cases halts
  · cases halts
    rfl

/-- A print that halts has no value, or the sink refuses it. -/
theorem Machine.residue_of_print {value : Expr}
    (halts : m.print s outer value = (.halted cause, m'))
    : (Stmt.print value).Residue s outer m cause m' := by
  cases gives : (m.chain outer).evaluate value with
  | error fault =>
      simp only [print, gives] at halts
      cases halts
      exact ⟨rfl, Or.inl ⟨rfl, fault, gives, rfl⟩⟩
  | ok v =>
      rcases emits : s.sink.emit v.toDatum m.output with ⟨output, refusal⟩
      cases refusal with
      | none =>
          simp only [print, gives, emits] at halts
          cases halts
      | some refused =>
          simp only [print, gives, emits] at halts
          cases halts
          exact ⟨rfl, Or.inr ⟨v, gives, emits⟩⟩

/-- A block halts where one of its statements does. -/
theorem Machine.haltsIn_of_block {body : List Stmt}
    (halts : m.block s outer (Stmt.execAll s body) = (.halted cause, m'))
    : m.HaltsIn s outer body cause m' := by
  rcases result : Stmt.execAll s body (m.level :: outer) m with ⟨outcome, inner⟩
  by_cases completes : outcome = .completed
  · subst completes
    rw [block_of_completed result] at halts
    cases halts
  · rw [block_of_stopped result completes] at halts
    cases halts
    exact ⟨rfl, inner, result, rfl⟩

/-- By induction on the rounds that are left: either this round is the one that fails, or it
completes and is counted. -/
theorem Machine.residue_of_iterate {condition : Expr} {body : List Stmt} {rounds : Nat}
    (halts : iterate (test outer .loop condition) (block s outer (Stmt.execAll s body)) rounds m
      = (.halted cause, m'))
    : (Stmt.loop condition body).Residue s outer m cause m' := by
  induction rounds generalizing m with
  | zero => cases halts
  | succ rounds ih =>
      cases gives : m.test outer .loop condition with
      | error fault =>
          simp only [iterate, gives] at halts
          cases halts
          exact ⟨0, _, .none, Or.inl ⟨rfl, fault, gives, rfl⟩⟩
      | ok b =>
          cases b with
          | false =>
              simp only [iterate, gives] at halts
              cases halts
          | true =>
              rcases result : m.block s outer (Stmt.execAll s body) with ⟨outcome, m₁⟩
              by_cases completes : outcome = .completed
              · subst completes
                simp only [iterate, gives, result] at halts
                obtain ⟨k, reached, rounds, fails⟩ := ih halts
                exact ⟨k + 1, reached, .more gives result rounds, fails⟩
              · rw [iterate_of_stopped gives result completes] at halts
                cases halts
                exact ⟨0, m, .none, Or.inr ⟨gives, haltsIn_of_block result⟩⟩

/-- A statement that halts leaves its residue, by cases over the statement. -/
theorem Stmt.residue_of_exec {stmt : Stmt} (halts : stmt.exec s outer m = (.halted cause, m'))
    : stmt.Residue s outer (m.record s (.entered stmt (m.chain outer))) cause m' := by
  generalize entered : m.record s (.entered stmt (m.chain outer)) = m₀
  cases stmt with
  | declare name value =>
      simp only [exec, entered] at halts
      exact Machine.config_of_declare halts
  | assign name value =>
      simp only [exec, entered] at halts
      exact Machine.config_of_assign halts
  | print value =>
      simp only [exec, entered] at halts
      exact Machine.residue_of_print halts
  | branch condition whenTrue whenFalse =>
      simp only [exec, entered] at halts
      cases gives : m₀.test outer .branch condition with
      | error fault =>
          simp only [gives] at halts
          cases halts
          exact Or.inl ⟨rfl, fault, gives, rfl⟩
      | ok b =>
          refine Or.inr ⟨b, gives, Machine.haltsIn_of_block ?_⟩
          cases b <;> simpa [gives] using halts
  | loop condition body =>
      simp only [exec, entered] at halts
      exact Machine.residue_of_iterate halts

/-- Everything but a loop leaves the bindings as it found them. -/
theorem Stmt.Residue.level {stmt : Stmt} (residue : stmt.Residue s outer m cause m')
    (straight : ∀ condition body, stmt ≠ .loop condition body)
    : m'.level = m.level := by
  cases stmt with
  | declare name value => exact congrArg Config.level residue
  | assign name value => exact congrArg Config.level residue
  | print value => exact residue.1
  | branch condition whenTrue whenFalse =>
      rcases residue with fails | ⟨_, _, halts⟩
      · exact congrArg Config.level fails.config
      · exact halts.level
  | loop condition body => exact absurd rfl (straight condition body)

/-- Statements halt at one of them, all those before it having completed. -/
theorem Stmt.split_of_execAll {stmts : List Stmt}
    (halts : Stmt.execAll s stmts outer m = (.halted cause, m'))
    : ∃ before failing after m₁,
        stmts = before ++ failing :: after
        ∧ Stmt.execAll s before outer m = (.completed, m₁)
        ∧ failing.exec s outer m₁ = (.halted cause, m') := by
  induction stmts generalizing m with
  | nil => cases halts
  | cons stmt rest ih =>
      rcases result : stmt.exec s outer m with ⟨outcome, m₁⟩
      by_cases completes : outcome = .completed
      · subst completes
        simp only [execAll, result] at halts
        obtain ⟨before, failing, after, m₂, rfl, completed, fails⟩ := ih halts
        exact ⟨stmt :: before, failing, after, m₂, rfl, by simpa only [execAll, result], fails⟩
      · rw [Stmt.execAll_of_stopped result completes] at halts
        cases halts
        exact ⟨[], stmt, rest, m, rfl, rfl, result⟩

end

-----------------------------------------------------------------------------------------
-- What the sink has received
-----------------------------------------------------------------------------------------

def Step.emitted? : Step → Option Value
  | .emitted value => some value
  | _ => none

/-- The values printed in a run, in order. -/
def emitted (steps : List Step) : List Value :=
  steps.filterMap Step.emitted?

/-- A run in two parts has emitted what the parts have. -/
theorem emitted_append (first later : List Step)
    : emitted (first ++ later) = emitted first ++ emitted later :=
  List.filterMap_append

/-- The state of a sink that is handed one value after another. -/
def Sink.receive (sink : Sink σ) (output : σ) (values : List Value) : σ :=
  values.foldl (fun output v => (sink.emit v.toDatum output).1) output

/-- A sink receives values in two parts. -/
theorem Sink.receive_append (sink : Sink σ) (output : σ) (first later : List Value)
    : sink.receive output (first ++ later) = sink.receive (sink.receive output first) later :=
  List.foldl_append

/-- However a run ends, the sink has received what was printed and has lost none of it. -/
theorem Runs.output_eq_receive {sink : Sink σ} {code : Code} {site : Site} {outer : List Level}
    {c c' : Config σ} {steps : List Step} {outcome : Outcome}
    (run : Runs sink code site outer c steps outcome c')
    : c'.output = sink.receive c.output (emitted steps) := by
  induction run with
  | enter _ ih | branch _ _ ih | loopStopped _ _ _ ih | stopped _ _ ih => exact ih
  | duplicate _ | undeclared _ | loopCut | nil | loopEnd _ => rfl
  | declareFault _ _ | assignFault _ _ | printFault _ | branchFault _ | loopFault _ => rfl
  | declare _ _ next | assign _ _ next =>
      subst next
      rfl
  | print _ emits => exact (congrArg Prod.fst emits).symm
  | loopAgain _ _ _ first again =>
      rw [again, first, ← Sink.receive_append, ← emitted_append]
      rfl
  | next _ _ first later => rw [later, first, emitted_append, Sink.receive_append]
  | block _ next ih =>
      subst next
      rw [emitted_append, Sink.receive_append]
      exact ih
  | blockStopped _ _ next ih =>
      subst next
      exact ih

/-- On every chain of levels: a statement that halts leaves its residue, and unless it is a loop,
the bindings as they were; statements that halt leave the residue of the one that fails, executed
after all those before it; and the sink has received every value printed on the way. -/
theorem Stmt.exec_leaves_residue (s : Setting σ) (outer : List Level)
    : (∀ (stmt : Stmt) (m m' : Machine σ) (cause : Halt),
        stmt.exec s outer m = (.halted cause, m')
        → stmt.Residue s outer (m.record s (.entered stmt (m.chain outer))) cause m'
          ∧ ((∀ condition body, stmt ≠ .loop condition body) → m'.level = m.level))
      ∧ (∀ (stmts : List Stmt) (m m' : Machine σ) (cause : Halt),
          Stmt.execAll s stmts outer m = (.halted cause, m')
          → ∃ before failing after m₁,
              stmts = before ++ failing :: after
              ∧ Stmt.execAll s before outer m = (.completed, m₁)
              ∧ failing.exec s outer m₁ = (.halted cause, m')
              ∧ failing.Residue s outer (m₁.record s (.entered failing (m₁.chain outer))) cause m')
      ∧ ∀ (stmts : List Stmt) (m : Machine σ),
          Stmt.EveryRun s stmts outer m fun steps _ c =>
            c.output = s.sink.receive m.output (emitted steps) := by
  refine ⟨?_, ?_, ?_⟩
  · intro stmt m m' cause halts
    have residue := Stmt.residue_of_exec halts
    refine ⟨residue, fun straight => ?_⟩
    rw [residue.level straight, Machine.level_record]
  · intro stmts m m' cause halts
    obtain ⟨before, failing, after, m₁, split, completes, fails⟩ := Stmt.split_of_execAll halts
    exact ⟨before, failing, after, m₁, split, completes, fails, Stmt.residue_of_exec fails⟩
  · intro stmts m
    exact Stmt.everyRun fun steps outcome c run => run.output_eq_receive

/-- A loop whose second round refers to a name that is not bound. -/
def Stmt.failing : Stmt :=
  .loop (.var "x") [.branch (.var "y") [.assign "y" (.boolean false)] [.print (.var "z")]]

def Machine.ready : Machine Transcript where
  level := .ofList [("x", .boolean true), ("y", .boolean true)]
  output := {}

/-- What a failing loop has written stays, unless it fails inside of a branch. -/
theorem Stmt.exec_leaves_residue_failing
    : let s : Setting Transcript :=
        { sink := Channel.collector.sink, recording := false, limit := 3 }
      let cause : Halt := .fault (.undefinedVariable "z")
      Stmt.failing.exec s [] .ready = (.halted cause, (Stmt.failing.exec s [] .ready).2)
      ∧ Stmt.failing.Residue s [] .ready cause (Stmt.failing.exec s [] .ready).2
      ∧ (Stmt.failing.exec s [] .ready).2.level.get? "y" = some (.boolean false)
      ∧ ((Stmt.branch (.var "x") [Stmt.failing] []).exec s [] .ready).1 = .halted cause
      ∧ ((Stmt.branch (.var "x") [Stmt.failing] []).exec s [] .ready).2.level
        = Machine.ready.level := by
  intro s cause
  have residue := (Stmt.exec_leaves_residue s []).1
  have halts : Stmt.failing.exec s [] .ready
      = (.halted cause, (Stmt.failing.exec s [] .ready).2) :=
    Prod.ext (by decide) rfl
  have nestedHalts : (Stmt.branch (.var "x") [Stmt.failing] []).exec s [] .ready
      = (.halted cause, ((Stmt.branch (.var "x") [Stmt.failing] []).exec s [] .ready).2) :=
    Prod.ext (by decide) rfl
  exact ⟨halts, (residue _ _ _ _ halts).1, rfl, by decide,
    (residue _ _ _ _ nestedHalts).2 nofun⟩

end ScopedWhile
