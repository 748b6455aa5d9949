import ScopedWhile.Proofs.Execution.Names
import ScopedWhile.Proofs.Scope.Restriction

/-!
Scope at run time is lexical scope. In a run from the empty root the current level binds, whenever
a statement is entered or evaluates its value or test, exactly the names that are visible at its
place, in their order. Hence a well-scoped program never fails for a name that is missing or bound
already.
-/

namespace ScopedWhile

/-- Code that stands at a place of the program. -/
def Code.LocatedAt (program : List Stmt) (site : Site) : Code → Prop
  | .stmt statement | .action statement => Occurs program site statement
  | .block body => BlockAt program site.inside.around body
  | .rest stmts => BlockAt program site.around (site.before ++ stmts)

/-- A step of a statement that the program has at the step's place, taken on a level that binds just
the names visible there. -/
def Step.Lexical (program : List Stmt) : Step → Prop
  | .entered site stmt chain => Occurs program site stmt ∧ chain.level.names = site.visible
  | .evaluated site e chain =>
      (∃ stmt, Occurs program site stmt ∧ stmt.operand = e) ∧ chain.level.names = site.visible
  | .declared _ _ _ | .assigned _ _ _ | .emitted _ | .merged _ => True

section

variable {σ : Type} {sink : Sink σ} {program : List Stmt} {code : Code} {site : Site}
  {outer : List Level} {c c' : Config σ} {steps : List Step} {outcome : Outcome}

/-- Either branch of a statement is a block of the program, inside of its place. -/
theorem Occurs.branch {condition : Expr} {whenTrue whenFalse : List Stmt}
    (occurs : Occurs program site (.branch condition whenTrue whenFalse)) (b : Bool)
    : BlockAt program site.inside.around (if b then whenTrue else whenFalse) := by
  obtain ⟨after, block⟩ := occurs
  cases b with
  | true => exact block.whenTrue
  | false => exact block.whenFalse

/-- The body of a loop is a block of the program, inside of its place. -/
theorem Occurs.loop {condition : Expr} {body : List Stmt}
    (occurs : Occurs program site (.loop condition body))
    : BlockAt program site.inside.around body := by
  obtain ⟨after, block⟩ := occurs
  exact block.body

/-- Running on behind a statement that has completed keeps to the program and to the visible
names. -/
theorem Runs.names_after {stmt : Stmt} {first : List Step}
    (runs : Runs sink (.stmt stmt) site outer c first .completed c')
    (names : c.level.names = site.visible)
    : c'.level.names = (site.after stmt).visible := by
  rw [runs.names_of_completed rfl, names, Site.visible_after]
  rfl

/-- Every step of a run keeps to the program and to the visible names. By induction over the run:
what completes adds just the names that it declares, so the next statement finds the names visible
at its place. -/
theorem Runs.lexical (run : Runs sink code site outer c steps outcome c')
    (located : code.LocatedAt program site) (names : c.level.names = site.visible)
    : ∀ step ∈ steps, step.Lexical program := by
  induction run with
  | enter _ ih =>
      rw [List.forall_mem_cons]
      exact ⟨⟨located, names⟩, ih located names⟩
  | duplicate _ | undeclared _ | loopCut | nil => nofun
  | declareFault _ _ | assignFault _ _ | printFault _ | branchFault _ | loopFault _ | loopEnd _ =>
      simp only [List.forall_mem_cons]
      exact ⟨⟨⟨_, located, rfl⟩, names⟩, nofun⟩
  | declare _ _ _ | assign _ _ _ | print _ _ =>
      simp only [List.forall_mem_cons]
      exact ⟨⟨⟨_, located, rfl⟩, names⟩, trivial, nofun⟩
  | branch _ _ ih =>
      rw [List.forall_mem_cons]
      exact ⟨⟨⟨_, located, rfl⟩, names⟩, ih (located.branch _) names⟩
  | loopStopped _ _ _ ih =>
      rw [List.forall_mem_cons]
      exact ⟨⟨⟨_, located, rfl⟩, names⟩, ih located.loop names⟩
  | loopAgain _ round _ first again =>
      rw [List.forall_mem_cons, List.forall_mem_append]
      refine ⟨⟨⟨_, located, rfl⟩, names⟩, first located.loop names, ?_⟩
      exact again located (round.names_of_block.trans names)
  | block _ _ ih =>
      rw [List.forall_mem_append]
      refine ⟨ih located ?_, by simp [Step.Lexical]⟩
      rw [names, Site.visible_inside]
  | blockStopped _ _ _ ih =>
      apply ih located
      rw [names, Site.visible_inside]
  | stopped _ _ ih => exact ih ⟨_, located⟩ names
  | next runs _ first later =>
      rw [List.forall_mem_append]
      refine ⟨first ⟨_, located⟩ names, later ?_ (runs.names_after names)⟩
      simpa [Code.LocatedAt, Site.after] using located

-----------------------------------------------------------------------------------------
-- Only a reference without a value brings up a fault that concerns the scope
-----------------------------------------------------------------------------------------

/-- Whether a name was missing, or bound where it should be new. -/
def Fault.concernsScope : Fault → Bool
  | .undefinedVariable _ | .duplicateDeclaration _ | .undeclaredAssignment _ => true
  | _ => false

namespace Operator

theorem concernsScope_of_numeric {result : Except ArithmeticError Number} {fault : Fault}
    (fails : numeric result = .error fault)
    : fault.concernsScope = false := by
  cases result with
  | error cause =>
      cases fails
      rfl
  | ok n => cases fails

/-- Operations on numbers complain of their operands only. -/
theorem concernsScope_of_applyNumbers {op : Operator} {a b : Number} {fault : Fault}
    (fails : op.applyNumbers a b = .error fault)
    : fault.concernsScope = false := by
  cases op with
  | add | sub | mul => exact concernsScope_of_numeric fails
  | div =>
      simp only [applyNumbers] at fails
      split at fails
      · cases fails
        rfl
      · exact concernsScope_of_numeric fails
  | greater | less | equal => cases fails
  | and | or =>
      cases fails
      rfl

/-- Operators complain of their operands only. -/
theorem concernsScope_of_apply {op : Operator} {a b : Value} {fault : Fault}
    (fails : op.apply a b = .error fault)
    : fault.concernsScope = false := by
  cases a with
  | boolean x =>
      cases b with
      | boolean y =>
          cases op with
          | and | or | equal => cases fails
          | add | sub | mul | div | greater | less =>
              cases fails
              rfl
      | number y =>
          cases fails
          rfl
  | number x =>
      cases b with
      | boolean y =>
          cases fails
          rfl
      | number y => exact concernsScope_of_applyNumbers fails

end Operator

/-- An expression that fails for the scope has a reference without a binding, by induction over the
expression. -/
theorem Expr.unbound_of_evaluate {chain : Chain} {e : Expr} {fault : Fault}
    (fails : chain.evaluate e = .error fault) (concerns : fault.concernsScope = true)
    : ∃ name ∈ e.names, chain.lookup? name = none := by
  induction e with
  | boolean b => cases fails
  | number x => cases fails
  | var name => exact ⟨name, List.mem_singleton_self name, (Chain.lookup_eq_error_iff.mp fails).1⟩
  | binary op left right first second =>
      simp only [names, List.mem_append]
      cases leftValue : chain.evaluate left with
      | error cause =>
          rw [Chain.evaluate_left_fails leftValue] at fails
          obtain ⟨name, member, unbound⟩ := first (leftValue.trans fails)
          exact ⟨name, Or.inl member, unbound⟩
      | ok a =>
          cases rightValue : chain.evaluate right with
          | error cause =>
              rw [Chain.evaluate_right_fails leftValue rightValue] at fails
              obtain ⟨name, member, unbound⟩ := second (rightValue.trans fails)
              exact ⟨name, Or.inr member, unbound⟩
          | ok b =>
              rw [Chain.evaluate_operands leftValue rightValue] at fails
              rw [Operator.concernsScope_of_apply fails] at concerns
              cases concerns

/-- A test that fails for the scope has a reference without a binding. -/
theorem Chain.unbound_of_test {chain : Chain} {kind : StmtKind} {condition : Expr} {fault : Fault}
    (fails : chain.test kind condition = .error fault) (concerns : fault.concernsScope = true)
    : ∃ name ∈ condition.names, chain.lookup? name = none := by
  cases value : chain.evaluate condition with
  | error cause =>
      simp only [test, value, Except.error.injEq] at fails
      exact Expr.unbound_of_evaluate (fails ▸ value) concerns
  | ok v =>
      cases v with
      | boolean b => simp [test, value] at fails
      | number n =>
          simp only [test, value, Except.error.injEq] at fails
          rw [← fails] at concerns
          cases concerns

/-- A datum that is a run-time value. -/
def Datum.IsValue (datum : Datum) : Prop :=
  ∃ v : Value, datum = v.toDatum

/-- A name of a level that holds values only has a value, whatever lies around the level. -/
theorem Level.exists_lookup? {level : Level} (values : level.Holds Datum.IsValue) {name : String}
    (bound : name ∈ level.names) (outer : List Level)
    : ∃ v, Chain.lookup? { level, outer } name = some v := by
  obtain ⟨datum, held⟩ := exists_get?_of_mem bound
  obtain ⟨v, rfl⟩ := values name datum held
  exact ⟨v, by simp [Chain.lookup?_of_get? held]⟩

/-- A run that completes leaves values only, if it started from values only. -/
theorem Runs.holds_values (run : Runs sink code site outer c steps outcome c')
    (values : c.level.Holds Datum.IsValue) (completes : outcome = .completed)
    : c'.level.Holds Datum.IsValue := by
  induction run with
  | enter _ ih | branch _ _ ih => exact ih values completes
  | declare _ _ next | assign _ _ next =>
      subst next
      exact values.set _ ⟨_, rfl⟩
  | print _ _ | loopEnd _ | nil => exact values
  | loopAgain _ _ _ first again => exact again (first values rfl) completes
  | block _ next ih =>
      subst next
      exact values.mergeBack (ih values rfl)
  | next _ _ first later => exact later (first values rfl) completes
  | loopStopped _ _ stops | blockStopped _ stops | stopped _ stops => exact absurd completes stops
  | _ => cases completes

/-- A statement that fits where it stands, on a level that binds the visible names to values, has
no reference without a value. -/
theorem Stmt.FitsIn.lookup? {stmt : Stmt} (fits : stmt.FitsIn site.visible)
    (names : c.level.names = site.visible) (values : c.level.Holds Datum.IsValue) {name : String}
    (member : name ∈ stmt.operand.names)
    : (c.chain outer).lookup? name ≠ none := by
  have bound : name ∈ c.level.names := names ▸ fits.1 name member
  obtain ⟨v, found⟩ := Level.exists_lookup? values bound outer
  rw [Config.chain, found]
  simp

/-- Where every statement fits, only the sink can bring up a fault that concerns the scope. -/
theorem Runs.scope_fault_of_sink (run : Runs sink code site outer c steps outcome c')
    (fits : ∀ site stmt, Occurs program site stmt → stmt.FitsIn site.visible)
    (located : code.LocatedAt program site) (names : c.level.names = site.visible)
    (values : c.level.Holds Datum.IsValue) {fault : Fault} (halts : outcome = .halted (.fault fault))
    (concerns : fault.concernsScope = true)
    : ∃ datum before after, sink.emit datum before = (after, some (.fault fault)) := by
  induction run with
  | enter _ ih => exact ih located names values halts
  | @duplicate name value site outer c bound => exact absurd (names ▸ bound) (fits _ _ located).2
  | undeclared free => exact absurd ((fits _ _ located).2) (names ▸ free)
  | declareFault _ fails | assignFault _ fails | printFault fails =>
      cases halts
      obtain ⟨name, member, unbound⟩ := Expr.unbound_of_evaluate fails concerns
      exact absurd unbound ((fits _ _ located).lookup? names values member)
  | branchFault fails | loopFault fails =>
      cases halts
      obtain ⟨name, member, unbound⟩ := Chain.unbound_of_test fails concerns
      exact absurd unbound ((fits _ _ located).lookup? names values member)
  | @print value site outer c v output refusal _ emits =>
      cases refusal with
      | none => cases halts
      | some cause =>
          cases halts
          exact ⟨_, _, _, emits⟩
  | branch _ _ ih => exact ih (located.branch _) names values halts
  | loopStopped _ _ _ ih => exact ih located.loop names values halts
  | loopAgain _ round _ first again =>
      have namesAgain := round.names_of_block.trans names
      exact again located namesAgain (round.holds_values values rfl) halts
  | blockStopped _ _ _ ih =>
      exact ih located (names.trans (Site.visible_inside _).symm) values halts
  | stopped _ _ ih => exact ih ⟨_, located⟩ names values halts
  | next runs _ _ later =>
      refine later ?_ (runs.names_after names) (runs.holds_values values rfl) halts
      simpa [Code.LocatedAt, Site.after] using located
  | declare _ _ _ | assign _ _ _ | loopEnd _ | loopCut | block _ _ | nil => cases halts

/-- The channels of a run refuse data, but never for a name. -/
theorem Channel.concernsScope_of_emit {channel : Channel} {datum : Datum}
    {before after : Transcript} {fault : Fault}
    (emits : channel.sink.emit datum before = (after, some (.fault fault)))
    : fault.concernsScope = false := by
  cases channel with
  | collector | receiver => cases emits
  | stream =>
      cases value : datum.toValue? with
      | some v => simp [Channel.sink, Datum.display, value] at emits
      | none =>
          simp only [Channel.sink, Datum.display, value, Prod.mk.injEq, Option.some.injEq,
            Halt.fault.injEq] at emits
          rw [← emits.2]
          rfl
  | function capacity =>
      cases capacity with
      | none => cases emits
      | some capacity =>
          simp only [Channel.sink] at emits
          split at emits
          · cases emits
          · cases emits

end

/-- In every run of a program from the empty root, finished or not, each statement is entered, and
evaluates its value or its tests, on a level with exactly the names visible at its place; a run that
completes leaves the names declared at the top. If the program is well scoped, no run fails for a
name, unless the sink itself says so, and the channels never do. -/
theorem Program.scope_at_run_time_is_lexical {σ : Type} (p : Program) (s : Setting σ) (output : σ)
    : (p.EveryRun s output fun steps outcome c =>
        (∀ site stmt chain,
          .entered site stmt chain ∈ steps
          → Occurs p.statements site stmt ∧ chain.level.names = site.visible)
        ∧ (∀ site e chain,
            .evaluated site e chain ∈ steps
            → (∃ stmt, Occurs p.statements site stmt ∧ stmt.operand = e)
              ∧ chain.level.names = site.visible)
        ∧ (outcome = .completed → c.level.names = Stmt.declaredNames p.statements)
        ∧ (p.WellScoped
          → ∀ fault,
              outcome = .halted (.fault fault)
              → fault.concernsScope = true
              → ∃ datum before after,
                  s.sink.emit datum before = (after, some (.fault fault))))
      ∧ (p.WellScoped
        → ∀ (channel : Channel) (recording : Bool) (limit : Nat) (fault : Fault),
            fault.concernsScope = true
            → (p.exec { sink := channel.sink, recording, limit } {}).1
              ≠ .halted (.fault fault)) := by
  refine ⟨Stmt.everyRun ?_, ?_⟩
  · intro steps outcome c run
    have lexical := run.lexical BlockAt.top rfl
    refine ⟨?_, ?_, ?_, ?_⟩
    · intro site stmt chain member
      exact lexical _ member
    · intro site e chain member
      exact lexical _ member
    · intro completes
      exact run.names_of_completed completes
    · intro fits fault halts concerns
      exact run.scope_fault_of_sink fits BlockAt.top rfl Level.Holds.empty halts concerns
  · intro fits channel recording limit fault concerns halts
    obtain ⟨steps, run, _⟩ := p.exec_follows { sink := channel.sink, recording, limit } {}
    obtain ⟨datum, before, after, emits⟩ :=
      run.scope_fault_of_sink fits BlockAt.top rfl Level.Holds.empty halts concerns
    rw [Channel.concernsScope_of_emit emits] at concerns
    cases concerns

/-- A loop that is ended by a name of its own body. -/
def Program.nested : Program where
  statements :=
    [ .declare "x" (.boolean true),
      .loop (.var "x") [.declare "y" (.boolean false), .assign "x" (.var "y")] ]

/-- The place of the assignment in it. -/
def Program.nested.inner : Site :=
  (Site.top.after (.declare "x" (.boolean true))).inside.after (.declare "y" (.boolean false))

/-- The assignment inside of the loop sees the name declared there, which is gone at the end. -/
theorem Program.scope_at_run_time_is_lexical_nested
    : nested.WellScoped
      ∧ (nested.exec { sink := Channel.stream.sink, recording := true, limit := 2 } {}).1
        ≠ .halted (.fault (.undefinedVariable "y"))
      ∧ ∃ steps c chain,
          nested.Runs Channel.stream.sink {} steps .completed c
          ∧ .entered nested.inner (.assign "x" (.var "y")) chain ∈ steps
          ∧ chain.level.names = ["x", "y"]
          ∧ c.level.names = ["x"] := by
  obtain ⟨steps, c, chain, run, member⟩
      : ∃ steps c chain,
          nested.Runs Channel.stream.sink {} steps .completed c
          ∧ .entered nested.inner (.assign "x" (.var "y")) chain ∈ steps :=
    ⟨_, _, _,
      .next (.enter (.declare (by decide) rfl rfl))
        (.next
          (.enter
            (.loopAgain rfl
              (.block
                (.next (.enter (.declare (by decide) rfl rfl))
                  (.next (.enter (.assign (by decide) rfl rfl)) .nil))
                rfl)
              (.loopEnd rfl)))
          .nil),
      List.mem_of_getElem? (i := 8) rfl⟩
  obtain ⟨lexical, faultless⟩ := scope_at_run_time_is_lexical nested
    { sink := Channel.stream.sink, recording := true, limit := 2 } {}
  obtain ⟨entered, _, final, _⟩ := lexical.of_runs steps .completed c run
  exact ⟨by decide, faultless (by decide) .stream true 2 _ rfl, steps, c, chain, run, member,
    (entered _ _ _ member).2, final rfl⟩

end ScopedWhile
