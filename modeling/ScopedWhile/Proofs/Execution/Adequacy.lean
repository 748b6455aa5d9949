import ScopedWhile.Proofs.Execution.Rules

/-!
The interpreter and the rules of execution. Whatever its limit, the interpreter follows the rules
and records exactly the events of the steps taken, so that what holds of every run by the rules
holds of every execution.
-/

namespace ScopedWhile

variable {σ : Type}

def Machine.config (m : Machine σ) : Config σ where
  level := m.level
  output := m.output

/-- The events that are recorded of steps. -/
def Setting.recorded (s : Setting σ) (steps : List Step) : List Event :=
  if s.recording then steps.filterMap Step.event? else []

/-- A result of the interpreter that is reached by the rules in the given steps, of which exactly
the events are added to the history. -/
structure Follows (s : Setting σ) (code : Code) (site : Site) (outer : List Level) (m : Machine σ)
    (steps : List Step) (result : Result σ) : Prop where
  runs : Runs s.sink code site outer m.config steps result.1 result.2.config
  history : result.2.history.toList = m.history.toList ++ s.recorded steps

namespace Setting

@[simp]
theorem recorded_nil (s : Setting σ)
    : s.recorded [] = [] := by
  simp [recorded]

/-- The events of steps are recorded in their order. -/
theorem recorded_append (s : Setting σ) (first later : List Step)
    : s.recorded (first ++ later) = s.recorded first ++ s.recorded later := by
  cases held : s.recording <;> simp [recorded, held]

@[simp]
theorem recorded_evaluated (s : Setting σ) (site : Site) (e : Expr) (chain : Chain)
    (later : List Step)
    : s.recorded (.evaluated site e chain :: later) = s.recorded later := by
  simp [recorded, List.filterMap_cons, Step.event?]

@[simp]
theorem recorded_emitted (s : Setting σ) (value : Value) (later : List Step)
    : s.recorded (.emitted value :: later) = s.recorded later := by
  simp [recorded, List.filterMap_cons, Step.event?]

end Setting

namespace Machine

/-- Recording changes nothing but the history. -/
@[simp]
theorem config_record (m : Machine σ) (s : Setting σ) (event : Event)
    : (m.record s event).config = m.config := by
  cases held : s.recording <;> simp [record, held, config]

@[simp]
theorem level_record (m : Machine σ) (s : Setting σ) (event : Event)
    : (m.record s event).level = m.level :=
  congrArg Config.level (m.config_record s event)

@[simp]
theorem output_record (m : Machine σ) (s : Setting σ) (event : Event)
    : (m.record s event).output = m.output :=
  congrArg Config.output (m.config_record s event)

/-- An event is recorded behind those before it, if any are. -/
theorem history_record (m : Machine σ) (s : Setting σ) {step : Step} {event : Event}
    (recorded : step.event? = some event)
    : (m.record s event).history.toList = m.history.toList ++ s.recorded [step] := by
  cases held : s.recording <;> simp [record, Setting.recorded, held, recorded]

theorem chain_eq (m : Machine σ) (outer : List Level)
    : m.chain outer = m.config.chain outer :=
  rfl

/-- A test sees the levels and nothing else of a machine. -/
theorem test_eq (m : Machine σ) (outer : List Level) (kind : StmtKind) (condition : Expr)
    : m.test outer kind condition = (m.config.chain outer).test kind condition := by
  rfl

end Machine

/-- A block that completes is merged back, which is recorded. -/
theorem Machine.block_of_completed {s : Setting σ} {outer : List Level}
    {body : List Level → Machine σ → Result σ} {m inner : Machine σ}
    (result : body (m.level :: outer) m = (.completed, inner))
    : m.block s outer body
      = (.completed,
          { inner with level := m.level.mergeBack inner.level }.record s
            (.merged { level := m.level.mergeBack inner.level, outer })) := by
  simp only [block, result, chain]

/-- A block that stops leaves the level around it as it was. -/
theorem Machine.block_of_stopped {s : Setting σ} {outer : List Level}
    {body : List Level → Machine σ → Result σ} {m inner : Machine σ} {outcome : Outcome}
    (result : body (m.level :: outer) m = (outcome, inner)) (stops : outcome ≠ .completed)
    : m.block s outer body = (outcome, { inner with level := m.level }) := by
  cases outcome with
  | completed => exact absurd rfl stops
  | halted cause => simp only [block, result]
  | unfinished => simp only [block, result]

/-- A round that stops is the last one. -/
theorem Machine.iterate_of_stopped {test : Machine σ → Except Fault Bool}
    {body : Machine σ → Result σ} {m m' : Machine σ} {outcome : Outcome}
    (gives : test m = .ok true) (result : body m = (outcome, m')) (stops : outcome ≠ .completed)
    (rounds : Nat)
    : iterate test body (rounds + 1) m = (outcome, m') := by
  cases outcome with
  | completed => exact absurd rfl stops
  | halted cause => simp only [iterate, gives, result]
  | unfinished => simp only [iterate, gives, result]

/-- A statement that stops is the last one. -/
theorem Stmt.execAll_of_stopped {s : Setting σ} {stmt : Stmt} {outer : List Level}
    {m m' : Machine σ} {outcome : Outcome} (result : stmt.exec s outer m = (outcome, m'))
    (stops : outcome ≠ .completed) (rest : List Stmt)
    : Stmt.execAll s (stmt :: rest) outer m = (outcome, m') := by
  cases outcome with
  | completed => exact absurd rfl stops
  | halted cause => simp only [execAll, result]
  | unfinished => simp only [execAll, result]

/-- Goes on from a result that completes. -/
def Result.andThen (result : Result σ) (next : Machine σ → Result σ) : Result σ :=
  match result with
  | (.completed, m) => next m
  | stopped => stopped

/-- What completes has completed in both parts. -/
theorem Result.eq_completed_of_andThen {result : Result σ} {next : Machine σ → Result σ}
    {m' : Machine σ} (completes : result.andThen next = (.completed, m'))
    : ∃ m, result = (.completed, m) ∧ next m = (.completed, m') := by
  obtain ⟨outcome, m⟩ := result
  cases outcome with
  | completed => exact ⟨m, rfl, completes⟩
  | halted cause => cases completes
  | unfinished => cases completes

/-- Where the test holds, a loop is a round and then the loop again. -/
theorem Machine.iterate_of_true {test : Machine σ → Except Fault Bool}
    {body : Machine σ → Result σ} {m : Machine σ} (gives : test m = .ok true) (rounds : Nat)
    : iterate test body (rounds + 1) m = Result.andThen (body m) (iterate test body rounds) := by
  simp only [iterate, gives]
  rfl

/-- Statements are the first one and then the others. -/
theorem Stmt.execAll_cons (s : Setting σ) (stmt : Stmt) (rest : List Stmt) (outer : List Level)
    (m : Machine σ)
    : Stmt.execAll s (stmt :: rest) outer m
      = Result.andThen (stmt.exec s outer m) (Stmt.execAll s rest outer) := by
  simp only [execAll]
  rfl

-----------------------------------------------------------------------------------------
-- The interpreter follows the rules
-----------------------------------------------------------------------------------------

/-- A result whose last step is recorded. -/
theorem Follows.record {s : Setting σ} {code : Code} {site : Site} {outer : List Level}
    {m m' : Machine σ} (steps : List Step) {step : Step} {event : Event}
    (recorded : step.event? = some event)
    (runs : Runs s.sink code site outer m.config (steps ++ [step]) .completed m'.config)
    (history : m'.history.toList = m.history.toList ++ s.recorded steps)
    : Follows s code site outer m (steps ++ [step]) (.completed, m'.record s event) where
  runs := by
    rw [Machine.config_record]
    exact runs
  history := by
    rw [Machine.history_record m' s recorded, history, s.recorded_append, List.append_assoc]

namespace Machine

variable {s : Setting σ} {site : Site} {outer : List Level}

/-- A declaration takes the steps of one of its rules, by cases over the name and the value. -/
theorem declare_follows (name : String) (value : Expr) (m : Machine σ)
    : ∃ steps,
        Follows s (.action (.declare name value)) site outer m steps
          (m.declare s outer name value) := by
  by_cases bound : name ∈ m.level.names
  · have result : m.declare s outer name value = m.fail (.duplicateDeclaration name) := by
      simp [declare, bound]
    rw [result]
    exact ⟨_, .duplicate bound, by simp [fail]⟩
  cases gives : (m.chain outer).evaluate value with
  | error fault =>
      have result : m.declare s outer name value = m.fail fault := by
        simp [declare, bound, gives]
      rw [result]
      exact ⟨_, .declareFault bound gives, by simp [fail]⟩
  | ok v =>
      simp only [declare, Level.contains_iff, bound, if_false, gives]
      exact ⟨_, .record [.evaluated site value (m.chain outer)] rfl (.declare bound gives rfl)
        (by simp)⟩

/-- An assignment takes the steps of one of its rules, by cases over the name and the value. -/
theorem assign_follows (name : String) (value : Expr) (m : Machine σ)
    : ∃ steps,
        Follows s (.action (.assign name value)) site outer m steps
          (m.assign s outer name value) := by
  by_cases bound : name ∈ m.level.names
  · cases gives : (m.chain outer).evaluate value with
    | error fault =>
        have result : m.assign s outer name value = m.fail fault := by
          simp [assign, bound, gives]
        rw [result]
        exact ⟨_, .assignFault bound gives, by simp [fail]⟩
    | ok v =>
        simp only [assign, Level.contains_iff, bound, if_true, gives]
        exact ⟨_, .record [.evaluated site value (m.chain outer)] rfl (.assign bound gives rfl)
          (by simp)⟩
  · have result : m.assign s outer name value = m.fail (.undeclaredAssignment name) := by
      simp [assign, bound]
    rw [result]
    exact ⟨_, .undeclared bound, by simp [fail]⟩

/-- A print takes the steps of one of its rules, by cases over the value. -/
theorem print_follows (value : Expr) (m : Machine σ)
    : ∃ steps, Follows s (.action (.print value)) site outer m steps (m.print s outer value) := by
  cases gives : (m.chain outer).evaluate value with
  | error fault =>
      have result : m.print s outer value = m.fail fault := by
        simp [print, gives]
      rw [result]
      exact ⟨_, .printFault gives, by simp [fail]⟩
  | ok v =>
      rcases emits : s.sink.emit v.toDatum m.output with ⟨output, refusal⟩
      have result : m.print s outer value = (.ofRefusal refusal, { m with output }) := by
        cases refusal <;> simp [print, gives, emits, Outcome.ofRefusal]
      rw [result]
      exact ⟨_, .print gives emits, by simp⟩

/-- A block follows the rules if its statements do, by cases over how they end. -/
theorem block_follows {body : List Stmt}
    (follows : ∀ site outer (m : Machine σ),
      ∃ steps, Follows s (.rest body) site outer m steps (Stmt.execAll s body outer m))
    (site : Site) (m : Machine σ)
    : ∃ steps,
        Follows s (.block body) site outer m steps (m.block s outer (Stmt.execAll s body)) := by
  obtain ⟨steps, runs, history⟩ := follows site.inside (m.level :: outer) m
  rcases result : Stmt.execAll s body (m.level :: outer) m with ⟨outcome, inner⟩
  rw [result] at runs history
  by_cases completes : outcome = .completed
  · subst completes
    simp only [block, result]
    exact ⟨_, .record steps rfl (.block runs rfl) history⟩
  · rw [block_of_stopped result completes]
    exact ⟨steps, .blockStopped runs completes rfl, history⟩

/-- By induction on the rounds that are left, whatever happened in those before. -/
theorem iterate_follows {condition : Expr} {body : List Stmt}
    (follows : ∀ m : Machine σ,
      ∃ steps,
        Follows s (.block body) site outer m steps (m.block s outer (Stmt.execAll s body)))
    (rounds : Nat) (m : Machine σ)
    : ∃ steps,
        Follows s (.action (.loop condition body)) site outer m steps
          (iterate (test outer .loop condition) (block s outer (Stmt.execAll s body))
            rounds m) := by
  induction rounds generalizing m with
  | zero => exact ⟨[], .loopCut, by simp [iterate]⟩
  | succ rounds ih =>
      cases gives : m.test outer .loop condition with
      | error fault =>
          simp only [iterate, gives]
          exact ⟨_, .loopFault gives, by simp [fail]⟩
      | ok b =>
          cases b with
          | false =>
              simp only [iterate, gives]
              exact ⟨_, .loopEnd gives, by simp⟩
          | true =>
              obtain ⟨first, round, history⟩ := follows m
              rcases result : m.block s outer (Stmt.execAll s body) with ⟨outcome, m₁⟩
              rw [result] at round history
              by_cases completes : outcome = .completed
              · subst completes
                obtain ⟨later, again, historyAgain⟩ := ih m₁
                simp only [iterate, gives, result]
                refine ⟨_, .loopAgain gives round again, ?_⟩
                rw [historyAgain, history, Setting.recorded_evaluated, Setting.recorded_append,
                  List.append_assoc]
              · rw [iterate_of_stopped gives result completes]
                exact ⟨_, .loopStopped gives round completes, by simpa using history⟩

end Machine

/-- Entering a statement is recorded before it acts. -/
theorem Follows.enter {s : Setting σ} {stmt : Stmt} {site : Site} {outer : List Level}
    {m : Machine σ} {result : Result σ}
    (acts : ∃ steps, Follows s (.action stmt) site outer
      (m.record s (.entered stmt (m.chain outer))) steps result)
    : ∃ steps, Follows s (.stmt stmt) site outer m steps result := by
  obtain ⟨steps, runs, history⟩ := acts
  rw [Machine.config_record] at runs
  have entering : (Step.entered site stmt (m.chain outer)).event?
      = some (.entered stmt (m.chain outer)) := rfl
  refine ⟨_, .enter runs, ?_⟩
  rw [history, Machine.history_record m s entering, List.append_assoc, ← s.recorded_append]
  rfl

mutual

/-- The interpreter follows the rules on every statement. By induction over the statement, with a
loop by induction on the rounds. -/
theorem Stmt.exec_follows (s : Setting σ) (stmt : Stmt) (site : Site) (outer : List Level)
    (m : Machine σ)
    : ∃ steps, Follows s (.stmt stmt) site outer m steps (stmt.exec s outer m) := by
  apply Follows.enter
  generalize entered : m.record s (.entered stmt (m.chain outer)) = m₀
  cases stmt with
  | declare name value =>
      simp only [exec, entered]
      exact m₀.declare_follows name value
  | assign name value =>
      simp only [exec, entered]
      exact m₀.assign_follows name value
  | print value =>
      simp only [exec, entered]
      exact m₀.print_follows value
  | branch condition whenTrue whenFalse =>
      simp only [exec, entered]
      cases gives : m₀.test outer .branch condition with
      | error fault => exact ⟨_, .branchFault gives, by simp [Machine.fail]⟩
      | ok b =>
          cases b with
          | true =>
              obtain ⟨steps, runs, history⟩ :=
                Machine.block_follows (Stmt.execAll_follows s whenTrue) site m₀
              exact ⟨_, .branch gives runs, by simpa using history⟩
          | false =>
              obtain ⟨steps, runs, history⟩ :=
                Machine.block_follows (Stmt.execAll_follows s whenFalse) site m₀
              exact ⟨_, .branch gives runs, by simpa using history⟩
  | loop condition body =>
      simp only [exec, entered]
      exact Machine.iterate_follows
        (Machine.block_follows (Stmt.execAll_follows s body) site) s.limit m₀
termination_by sizeOf stmt

/-- The interpreter follows the rules on statements one after another. -/
theorem Stmt.execAll_follows (s : Setting σ) (stmts : List Stmt) (site : Site)
    (outer : List Level) (m : Machine σ)
    : ∃ steps, Follows s (.rest stmts) site outer m steps (Stmt.execAll s stmts outer m) := by
  cases stmts with
  | nil => exact ⟨[], .nil, by simp [execAll]⟩
  | cons stmt rest =>
      obtain ⟨first, runs, history⟩ := Stmt.exec_follows s stmt site outer m
      rcases result : stmt.exec s outer m with ⟨outcome, m₁⟩
      rw [result] at runs history
      by_cases completes : outcome = .completed
      · subst completes
        obtain ⟨later, others, historyLater⟩ :=
          Stmt.execAll_follows s rest (site.after stmt) outer m₁
        simp only [execAll, result]
        refine ⟨_, .next runs others, ?_⟩
        rw [historyLater, history, s.recorded_append, List.append_assoc]
      · rw [Stmt.execAll_of_stopped result completes]
        exact ⟨first, .stopped runs completes, history⟩
termination_by sizeOf stmts

end

-----------------------------------------------------------------------------------------
-- What holds of every run holds of the execution
-----------------------------------------------------------------------------------------

/-- What holds of every run of statements by the rules, the one that the interpreter takes among
them: its steps lead to its result, and it adds exactly their events to the history. -/
structure Stmt.EveryRun (s : Setting σ) (stmts : List Stmt) (outer : List Level) (m : Machine σ)
    (property : List Step → Outcome → Config σ → Prop) : Prop where
  of_runs : ∀ steps outcome c,
    Runs s.sink (.rest stmts) .top outer m.config steps outcome c → property steps outcome c
  of_execution : ∃ steps,
    Follows s (.rest stmts) .top outer m steps (Stmt.execAll s stmts outer m)
    ∧ property steps (Stmt.execAll s stmts outer m).1 (Stmt.execAll s stmts outer m).2.config

/-- The interpreter is adequate: it takes one of the runs by the rules, so that a property of all
runs is one of its execution too. -/
theorem Stmt.everyRun {s : Setting σ} {stmts : List Stmt} {outer : List Level} {m : Machine σ}
    {property : List Step → Outcome → Config σ → Prop}
    (holds : ∀ steps outcome c,
      Runs s.sink (.rest stmts) .top outer m.config steps outcome c → property steps outcome c)
    : Stmt.EveryRun s stmts outer m property := by
  obtain ⟨steps, follows⟩ := Stmt.execAll_follows s stmts .top outer m
  exact ⟨holds, steps, follows, holds _ _ _ follows.runs⟩

/-- The execution of a program from the empty root is a run by the rules. -/
theorem Program.exec_follows (p : Program) (s : Setting σ) (output : σ)
    : ∃ steps,
        Follows s (.rest p.statements) .top [] { level := .empty, output } steps
          (p.exec s output) :=
  Stmt.execAll_follows s p.statements .top [] { level := .empty, output }

/-- What holds of every run of a program from the empty root. -/
def Program.EveryRun (p : Program) (s : Setting σ) (output : σ)
    (property : List Step → Outcome → Config σ → Prop) : Prop :=
  Stmt.EveryRun s p.statements [] { level := .empty, output } property

-----------------------------------------------------------------------------------------
-- What a run reports
-----------------------------------------------------------------------------------------

/-- How an execution that leaves a level at the root is reported to end. -/
def Outcome.ending (level : Level) : Outcome → Except RunError Level
  | .completed => .ok level
  | .halted cause => .error (.halted cause)
  | .unfinished => .error .unfinished

/-- A run reports how its execution ends and what it has written. -/
theorem run_of_exec {target : RunTarget} {output : Output} {p : Program} {channel : Channel}
    (recording : Bool) (limit : Nat) (resolves : target.resolve = .ok p)
    (channels : output.resolve = .ok channel) {outcome : Outcome} {m : Machine Transcript}
    (result : p.exec { sink := channel.sink, recording, limit } {} = (outcome, m))
    : (run target output recording limit).ending = outcome.ending m.level
      ∧ (run target output recording limit).transcript = m.output := by
  simp only [run, resolves, channels, result]
  cases outcome <;> exact ⟨rfl, rfl⟩

/-- A target that stands for no program is reported without any output. -/
theorem run_of_unresolved {target : RunTarget} {cause : RunError}
    (fails : target.resolve = .error cause) (output : Output) (recording : Bool) (limit : Nat)
    : (run target output recording limit).ending = .error cause
      ∧ (run target output recording limit).transcript = {} := by
  constructor <;> simp only [run, fails]

/-- A target that stands for no program is reported as such, and nothing is executed. -/
theorem RunTarget.resolve_ne_halted (target : RunTarget) (cause : Halt)
    : target.resolve ≠ .error (.halted cause) := by
  have invalid {loaded : Checked Program}
      : Except.mapError RunError.invalid loaded ≠ .error (.halted cause) := by
    intro same
    cases loaded <;> cases same
  cases target with
  | program loaded => exact invalid
  | trees nodes => exact invalid
  | datum d =>
      cases d with
      | list items | tuple items => exact invalid
      | null | boolean _ | number _ | text _ | bytes _ | object _ | scope _ => simp [resolve]

end ScopedWhile
