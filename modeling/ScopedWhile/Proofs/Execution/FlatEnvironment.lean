import ScopedWhile.Proofs.Execution.Names
import ScopedWhile.Proofs.Scope.Restriction

/-!
Block scopes refine a flat environment. The flat interpreter keeps one level for the statements and
all blocks inside of them, and forgets at the end of a block the names that were not bound at its
start. Copying a level for every block and merging it back gives the same outcome, the same output
and, when a run completes, the same level.
-/

namespace ScopedWhile

namespace Flat

variable {σ : Type}

abbrev Result (σ : Type) := Outcome × Config σ

def fail (c : Config σ) (fault : Fault) : Result σ :=
  (.halted (.fault fault), c)

/-- Ends a block: the names that are not bound at its entry are removed. -/
def leave (entry : Level) : Result σ → Result σ
  | (.completed, c) => (.completed, { c with level := c.level.restrict entry.names })
  | stopped => stopped

def iterate (test : Config σ → Except Fault Bool) (body : Config σ → Result σ)
    : Nat → Config σ → Result σ
  | 0, c => (.unfinished, c)
  | rounds + 1, c => match test c with
    | .error fault => fail c fault
    | .ok false => (.completed, c)
    | .ok true => match body c with
      | (.completed, c) => iterate test body rounds c
      | stopped => stopped

mutual

/-- Executes a statement on the one level; names that it does not bind are looked up in the levels
that were around it from the start. -/
def exec (sink : Sink σ) (limit : Nat) (ancestors : List Level) : Stmt → Config σ → Result σ
  | .declare name value, c =>
      if name ∈ c.level.names then fail c (.duplicateDeclaration name)
      else match (c.chain ancestors).evaluate value with
        | .error fault => fail c fault
        | .ok v => (.completed, { c with level := c.level.set name v.toDatum })
  | .assign name value, c =>
      if name ∈ c.level.names then match (c.chain ancestors).evaluate value with
        | .error fault => fail c fault
        | .ok v => (.completed, { c with level := c.level.set name v.toDatum })
      else fail c (.undeclaredAssignment name)
  | .branch condition whenTrue whenFalse, c =>
      match (c.chain ancestors).test .branch condition with
      | .error fault => fail c fault
      | .ok true => leave c.level (execAll sink limit ancestors whenTrue c)
      | .ok false => leave c.level (execAll sink limit ancestors whenFalse c)
  | .loop condition body, c =>
      iterate (fun c => (c.chain ancestors).test .loop condition)
        (fun c => leave c.level (execAll sink limit ancestors body c)) limit c
  | .print value, c => match (c.chain ancestors).evaluate value with
    | .error fault => fail c fault
    | .ok v => match sink.emit v.toDatum c.output with
      | (output, refusal) => (.ofRefusal refusal, { c with output })

def execAll (sink : Sink σ) (limit : Nat) (ancestors : List Level)
    : List Stmt → Config σ → Result σ
  | [], c => (.completed, c)
  | stmt :: rest, c => match exec sink limit ancestors stmt c with
    | (.completed, c) => execAll sink limit ancestors rest c
    | stopped => stopped

end

/-- What a run reports as its end. -/
def ending : Result σ → Except RunError Level
  | (.completed, c) => .ok c.level
  | (.halted cause, _) => .error (.halted cause)
  | (.unfinished, _) => .error .unfinished

/-- Both interpreters end alike with the same output, and with the same bindings in the same order
when they complete. -/
structure Agrees (nested : ScopedWhile.Result σ) (flat : Result σ) : Prop where
  outcome : nested.1 = flat.1
  output : nested.2.output = flat.2.output
  level : nested.1 = .completed → nested.2.level = flat.2.level

-----------------------------------------------------------------------------------------
-- A block on a copy of the level ends as the block in place does
-----------------------------------------------------------------------------------------

variable {s : Setting σ} {ancestors hidden : List Level} {m : Machine σ}

/-- A block that stops forgets no names. -/
theorem leave_of_stopped (entry : Level) {result : Result σ} (stops : result.1 ≠ .completed)
    : leave entry result = result := by
  obtain ⟨outcome, c⟩ := result
  cases outcome with
  | completed => exact absurd rfl stops
  | halted cause => rfl
  | unfinished => rfl

theorem iterate_of_stopped {test : Config σ → Except Fault Bool} {body : Config σ → Result σ}
    {c : Config σ} (gives : test c = .ok true) (stops : (body c).1 ≠ .completed) (rounds : Nat)
    : iterate test body (rounds + 1) c = body c := by
  rcases result : body c with ⟨outcome, c'⟩
  rw [result] at stops
  cases outcome with
  | completed => exact absurd rfl stops
  | halted cause => simp only [iterate, gives, result]
  | unfinished => simp only [iterate, gives, result]

theorem execAll_of_stopped {sink : Sink σ} {limit : Nat} {stmt : Stmt} {c : Config σ}
    (stops : (exec sink limit ancestors stmt c).1 ≠ .completed) (rest : List Stmt)
    : execAll sink limit ancestors (stmt :: rest) c = exec sink limit ancestors stmt c := by
  rcases result : exec sink limit ancestors stmt c with ⟨outcome, c'⟩
  rw [result] at stops
  cases outcome with
  | completed => exact absurd rfl stops
  | halted cause => simp only [execAll, result]
  | unfinished => simp only [execAll, result]

namespace Agrees

/-- The same fault on the same configuration agrees. -/
theorem of_fault (m : Machine σ) (fault : Fault)
    : Agrees (m.fail fault) (fail m.config fault) :=
  ⟨rfl, rfl, fun _ => rfl⟩

/-- Results that agree and complete are in the same configuration. -/
theorem completed {nested : Machine σ} {flat : Result σ} (agrees : Agrees (.completed, nested) flat)
    : flat = (.completed, nested.config) := by
  obtain ⟨outcome, level, output⟩ := flat
  obtain ⟨rfl, rfl, same⟩ := agrees
  obtain rfl := same rfl
  rfl

/-- Where runs stop, the levels they leave need not be the same. -/
theorem stopped {outcome : Outcome} {nested inner : Machine σ} {flat : Result σ}
    (agrees : Agrees (outcome, inner) flat) (stops : outcome ≠ .completed)
    (output : nested.output = inner.output)
    : Agrees (outcome, nested) flat :=
  ⟨agrees.outcome, output.trans agrees.output, fun completes => absurd completes stops⟩

end Agrees

/-- Levels covered by the current one are never consulted by an expression. -/
theorem evaluate_covered (covers : m.level.Covers hidden) (e : Expr)
    : (m.chain (hidden ++ ancestors)).evaluate e = (m.config.chain ancestors).evaluate e :=
  congrArg e.eval (Chain.lookup_congr (Chain.lookup?_covered covers ancestors))

/-- Levels covered by the current one are never consulted by a test. -/
theorem test_covered (covers : m.level.Covers hidden) (kind : StmtKind) (condition : Expr)
    : m.test (hidden ++ ancestors) kind condition
      = (m.config.chain ancestors).test kind condition := by
  rw [Machine.test_eq, Chain.test, ← Machine.chain_eq, evaluate_covered covers]
  rfl

/-- Both interpreters declare alike, by cases over the name and the value. -/
theorem declare_agrees (covers : m.level.Covers hidden) (name : String) (value : Expr)
    : Agrees (m.declare s (hidden ++ ancestors) name value)
        (exec s.sink s.limit ancestors (.declare name value) m.config) := by
  have same : m.config.level = m.level := rfl
  simp only [Machine.declare, exec, Level.contains_iff, evaluate_covered covers, same]
  by_cases bound : name ∈ m.level.names
  · simp only [bound, if_true]
    exact .of_fault m _
  · simp only [bound, if_false]
    cases (m.config.chain ancestors).evaluate value with
    | error fault => exact .of_fault m fault
    | ok v => exact ⟨rfl, Machine.output_record .., fun _ => Machine.level_record ..⟩

/-- Both interpreters assign alike, by cases over the name and the value. -/
theorem assign_agrees (covers : m.level.Covers hidden) (name : String) (value : Expr)
    : Agrees (m.assign s (hidden ++ ancestors) name value)
        (exec s.sink s.limit ancestors (.assign name value) m.config) := by
  have same : m.config.level = m.level := rfl
  simp only [Machine.assign, exec, Level.contains_iff, evaluate_covered covers, same]
  by_cases bound : name ∈ m.level.names
  · simp only [bound, if_true]
    cases (m.config.chain ancestors).evaluate value with
    | error fault => exact .of_fault m fault
    | ok v => exact ⟨rfl, Machine.output_record .., fun _ => Machine.level_record ..⟩
  · simp only [bound, if_false]
    exact .of_fault m _

/-- Both interpreters print alike, since they hand the same value to the sink. -/
theorem print_agrees (covers : m.level.Covers hidden) (value : Expr)
    : Agrees (m.print s (hidden ++ ancestors) value)
        (exec s.sink s.limit ancestors (.print value) m.config) := by
  simp only [Machine.print, exec, evaluate_covered covers]
  cases (m.config.chain ancestors).evaluate value with
  | error fault => exact .of_fault m fault
  | ok v =>
      have same : m.config.output = m.output := rfl
      rcases emits : s.sink.emit v.toDatum m.output with ⟨output, refusal⟩
      simp only [same, emits]
      cases refusal <;> exact ⟨rfl, rfl, fun _ => rfl⟩

/-- Merging a copy back gives what forgetting the new names gives, since the copy starts with the
names of the level and only adds to them. -/
theorem block_agrees {body : List Stmt}
    (agrees : Agrees (Stmt.execAll s body (m.level :: (hidden ++ ancestors)) m)
      (execAll s.sink s.limit ancestors body m.config))
    : Agrees (m.block s (hidden ++ ancestors) (Stmt.execAll s body))
        (leave m.level (execAll s.sink s.limit ancestors body m.config)) := by
  rcases result : Stmt.execAll s body (m.level :: (hidden ++ ancestors)) m with ⟨outcome, inner⟩
  rw [result] at agrees
  by_cases completes : outcome = .completed
  · subst completes
    rw [agrees.completed, leave, Machine.block_of_completed result]
    refine ⟨rfl, by simp [Machine.config], fun _ => ?_⟩
    rw [Machine.level_record]
    exact Level.mergeBack_eq_restrict (Stmt.names_grow_of_execAll result)
  · rw [Machine.block_of_stopped result completes]
    rw [leave_of_stopped m.level (agrees.outcome ▸ completes)]
    exact agrees.stopped completes rfl

/-- By induction on the rounds; every round leaves the names of the level as they were, so that it
goes on covering the same levels. -/
theorem iterate_agrees {condition : Expr} {body : List Stmt}
    (agrees : ∀ m : Machine σ, m.level.Covers hidden
      → Agrees (m.block s (hidden ++ ancestors) (Stmt.execAll s body))
          (leave m.level (execAll s.sink s.limit ancestors body m.config)))
    (covers : m.level.Covers hidden) (rounds : Nat)
    : Agrees
        (Machine.iterate (Machine.test (hidden ++ ancestors) .loop condition)
          (Machine.block s (hidden ++ ancestors) (Stmt.execAll s body)) rounds m)
        (iterate (fun c => (c.chain ancestors).test .loop condition)
          (fun c => leave c.level (execAll s.sink s.limit ancestors body c)) rounds m.config) := by
  induction rounds generalizing m with
  | zero => exact ⟨rfl, rfl, fun _ => rfl⟩
  | succ rounds ih =>
      have same : m.test (hidden ++ ancestors) .loop condition = _ :=
        test_covered covers .loop condition
      cases gives : (m.config.chain ancestors).test .loop condition with
      | error fault =>
          simp only [Machine.iterate, iterate, same, gives]
          exact .of_fault m fault
      | ok b =>
          cases b with
          | false =>
              simp only [Machine.iterate, iterate, same, gives]
              exact ⟨rfl, rfl, fun _ => rfl⟩
          | true =>
              have round := agrees m covers
              rcases result : m.block s (hidden ++ ancestors) (Stmt.execAll s body)
                with ⟨outcome, m₁⟩
              rw [result] at round
              by_cases completes : outcome = .completed
              · subst completes
                have names := Machine.names_of_block result
                have again := ih (covers.mono fun _ bound => names ▸ bound)
                have flat := round.completed
                simp only [Machine.iterate, iterate, same, gives, result]
                have level : m.config.level = m.level := rfl
                rw [level, flat]
                exact again
              · rw [Machine.iterate_of_stopped (same.trans gives) result completes]
                rw [iterate_of_stopped gives (round.outcome ▸ completes)]
                exact round

mutual

/-- Both interpreters execute a statement alike. By induction over the statement, where each block
hides one more level from the flat interpreter. -/
theorem exec_agrees (s : Setting σ) (ancestors : List Level) (stmt : Stmt) {hidden : List Level}
    {m : Machine σ} (covers : m.level.Covers hidden)
    : Agrees (stmt.exec s (hidden ++ ancestors) m)
        (exec s.sink s.limit ancestors stmt m.config) := by
  -- Recording the entry changes nothing that the flat interpreter sees.
  generalize entered : m.record s (.entered stmt (m.chain (hidden ++ ancestors))) = m₀
  have config : m.config = m₀.config := by rw [← entered, Machine.config_record]
  have level : m.level = m₀.level := congrArg Config.level config
  rw [config]
  rw [level] at covers
  cases stmt with
  | declare name value =>
      simp only [Stmt.exec, entered]
      exact declare_agrees covers name value
  | assign name value =>
      simp only [Stmt.exec, entered]
      exact assign_agrees covers name value
  | print value =>
      simp only [Stmt.exec, entered]
      exact print_agrees covers value
  | branch condition whenTrue whenFalse =>
      simp only [Stmt.exec, entered, exec, test_covered covers]
      cases gives : (m₀.config.chain ancestors).test .branch condition with
      | error fault => exact .of_fault m₀ fault
      | ok b =>
          cases b with
          | true => exact block_agrees (execAll_agrees s ancestors whenTrue covers.child)
          | false => exact block_agrees (execAll_agrees s ancestors whenFalse covers.child)
  | loop condition body =>
      simp only [Stmt.exec, entered, exec]
      apply iterate_agrees _ covers
      intro m covers
      exact block_agrees (execAll_agrees s ancestors body covers.child)
termination_by sizeOf stmt

/-- Both interpreters execute statements alike one after another; names that are added go on
covering what is hidden. -/
theorem execAll_agrees (s : Setting σ) (ancestors : List Level) (stmts : List Stmt)
    {hidden : List Level} {m : Machine σ} (covers : m.level.Covers hidden)
    : Agrees (Stmt.execAll s stmts (hidden ++ ancestors) m)
        (execAll s.sink s.limit ancestors stmts m.config) := by
  cases stmts with
  | nil =>
      simp only [Stmt.execAll, execAll]
      exact ⟨rfl, rfl, fun _ => rfl⟩
  | cons stmt rest =>
      have first := exec_agrees s ancestors stmt covers
      rcases result : stmt.exec s (hidden ++ ancestors) m with ⟨outcome, m₁⟩
      rw [result] at first
      by_cases completes : outcome = .completed
      · subst completes
        have grown := Stmt.names_grow_of_exec result
        simp only [Stmt.execAll, execAll, result, first.completed]
        exact execAll_agrees s ancestors rest (covers.mono grown.subset)
      · rw [Stmt.execAll_of_stopped result completes]
        rw [execAll_of_stopped (first.outcome ▸ completes)]
        exact first
termination_by sizeOf stmts

end

/-- With no blocks around them, statements need no level left out. -/
theorem execAll_refines (s : Setting σ) (stmts : List Stmt) (outer : List Level) (m : Machine σ)
    : Agrees (Stmt.execAll s stmts outer m) (execAll s.sink s.limit outer stmts m.config) :=
  execAll_agrees s outer stmts (Level.Covers.nil m.level)

/-- What a run reports is what the flat interpreter ends with. -/
theorem run_refines {target : RunTarget} {output : Output} {p : Program} {channel : Channel}
    (recording : Bool) (limit : Nat) (resolves : target.resolve = .ok p)
    (channels : output.resolve = .ok channel) {flat : Result Transcript}
    (agrees : Agrees (p.exec { sink := channel.sink, recording, limit } {}) flat)
    : (run target output recording limit).ending = ending flat
      ∧ (run target output recording limit).transcript = flat.2.output := by
  rcases result : p.exec { sink := channel.sink, recording, limit } {} with ⟨outcome, m⟩
  obtain ⟨flatOutcome, c⟩ := flat
  rw [result] at agrees
  obtain ⟨rfl, written, level⟩ := agrees
  simp only [run, resolves, channels, result]
  cases outcome with
  | completed => exact ⟨congrArg Except.ok (level rfl), written⟩
  | halted cause => exact ⟨rfl, written⟩
  | unfinished => exact ⟨rfl, written⟩

end Flat

/-- Executing statements on any chain of levels agrees with executing them on its innermost level
alone, the levels around it being consulted only for names that it does not bind; and a run from the
empty root ends and writes as the flat interpreter does. -/
theorem block_scopes_refine_flat_environment
    : (∀ {σ : Type} (s : Setting σ) (stmts : List Stmt) (outer : List Level) (m : Machine σ),
        Flat.Agrees (Stmt.execAll s stmts outer m)
          (Flat.execAll s.sink s.limit outer stmts m.config))
      ∧ ∀ (target : RunTarget) (output : Output) (recording : Bool) (limit : Nat)
          (p : Program) (channel : Channel),
          target.resolve = .ok p
          → output.resolve = .ok channel
          → let flat := Flat.execAll channel.sink limit [] p.statements
              { level := .empty, output := {} }
            (run target output recording limit).ending = Flat.ending flat
            ∧ (run target output recording limit).transcript = flat.2.output := by
  refine ⟨Flat.execAll_refines, ?_⟩
  intro target output recording limit p channel resolves channels flat
  exact Flat.run_refines recording limit resolves channels
    (Flat.execAll_refines { sink := channel.sink, recording, limit } p.statements []
      { level := .empty, output := {} })

/-- A loop whose body has a name of its own and is ended from inside a branch. -/
def Flat.sample : Program where
  statements :=
    [ .declare "go" (.boolean true),
      .loop (.var "go")
        [ .declare "next" (.boolean false),
          .branch (.var "next") [] [.assign "go" (.var "next")],
          .print (.var "go") ] ]

/-- A loop with a name of its own leaves none of it behind. -/
theorem block_scopes_refine_flat_environment_sample
    : let flat := Flat.execAll Channel.collector.sink 2 [] Flat.sample.statements
        { level := .empty, output := {} }
      (run (.program (.ok Flat.sample)) .collector false 2).ending = Flat.ending flat
      ∧ (run (.program (.ok Flat.sample)) .collector false 2).transcript = flat.2.output
      ∧ flat.1 = .completed
      ∧ flat.2.level.names = ["go"] := by
  obtain ⟨ending, transcript⟩ := block_scopes_refine_flat_environment.2
    (.program (.ok Flat.sample)) .collector false 2 Flat.sample .collector rfl rfl
  exact ⟨ending, transcript, by decide, by decide⟩

end ScopedWhile
