import ScopedWhile.Proofs.Execution.Residue
import ScopedWhile.Proofs.Scope.Restriction
import ScopedWhile.Proofs.Source.Layout

/-!
What programs compute with and how they fail. In a run from the empty root every level binds only
booleans and doubles, and only these are printed: integers and scopes enter through data, which a
program has none of. A run that fails does so for one of six ordinary faults, unless its last step
is a print that the sink refuses.
-/

namespace ScopedWhile

/-- The data that programs compute with. -/
inductive Datum.Basic : Datum → Prop where
  | boolean (b : Bool) : Basic (.boolean b)
  | double (x : Binary64) : Basic (.number (.double x))

/-- Faults that a program can bring about. The others are for data that no program gives rise to:
integers too large for arithmetic with doubles, what has no display text, and nodes of a wrong
kind. -/
def Fault.isOrdinary : Fault → Bool
  | .undefinedVariable _ | .operandType _ _ | .divisionByZero => true
  | .duplicateDeclaration _ | .undeclaredAssignment _ | .nonBooleanTest _ => true
  | .arithmetic _ | .unformattable _ | .unsupportedExpression _ | .unsupportedStatement _ => false

def Chain.Basic (chain : Chain) : Prop :=
  ∀ level ∈ chain.levels, level.Holds Datum.Basic

/-- All levels that a step sees, and the value that it writes or prints, are basic. -/
def Step.Basic : Step → Prop
  | .entered _ _ chain | .evaluated _ _ chain | .merged chain => chain.Basic
  | .declared _ v chain | .assigned _ v chain => v.toDatum.Basic ∧ chain.Basic
  | .emitted v => v.toDatum.Basic

-----------------------------------------------------------------------------------------
-- Expressions on basic values
-----------------------------------------------------------------------------------------

/-- A basic value or an ordinary fault. -/
def Ordinary : Except Fault Value → Prop
  | .ok v => v.toDatum.Basic
  | .error fault => fault.isOrdinary = true

/-- On basic levels every value that is found is basic. -/
theorem Chain.Basic.lookup? {chain : Chain} (basic : chain.Basic) {name : String} {v : Value}
    (found : chain.lookup? name = some v)
    : v.toDatum.Basic := by
  obtain ⟨datum, nearest, value⟩ := Option.bind_eq_some_iff.mp found
  obtain ⟨level, member, held⟩ := List.exists_of_findSome?_eq_some nearest
  rw [Datum.toDatum_of_toValue? value]
  exact basic level member name datum held

namespace Operator

/-- Among doubles no arithmetic fails, a division by zero apart. -/
theorem applyNumbers_ordinary (op : Operator) (x y : Binary64)
    : Ordinary (op.applyNumbers (.double x) (.double y)) := by
  cases op with
  | add | sub | mul => exact .double _
  | div =>
      simp only [applyNumbers]
      split
      · rfl
      · exact .double _
  | greater | less | equal => exact .boolean _
  | and | or => rfl

/-- Among booleans an operator gives a boolean or complains of its operands. -/
theorem applyBooleans_ordinary (op : Operator) (a b : Bool)
    : Ordinary (op.applyBooleans a b) := by
  cases op with
  | and | or | equal => exact .boolean _
  | add | sub | mul | div | greater | less => rfl

/-- On basic operands every operator gives a basic value or an ordinary fault. -/
theorem apply_ordinary (op : Operator) {a b : Value} (left : a.toDatum.Basic)
    (right : b.toDatum.Basic)
    : Ordinary (op.apply a b) := by
  cases a with
  | boolean x =>
      cases b with
      | boolean y => exact op.applyBooleans_ordinary x y
      | number n => rfl
  | number m =>
      cases b with
      | boolean y => rfl
      | number n =>
          cases left
          cases right
          exact op.applyNumbers_ordinary _ _

end Operator

/-- An expression ends in a basic value or an ordinary fault if its references do, by induction over
the expression. -/
theorem Expr.eval_ordinary {lookup : String → Except Fault Value}
    (ordinary : ∀ name, Ordinary (lookup name)) (e : Expr)
    : Ordinary (e.eval lookup) := by
  induction e with
  | boolean b => exact .boolean b
  | number x => exact .double x
  | var name => exact ordinary name
  | binary op left right first second =>
      simp only [eval]
      cases leftValue : left.eval lookup with
      | error fault =>
          rw [leftValue] at first
          exact first
      | ok a =>
          cases rightValue : right.eval lookup with
          | error fault =>
              rw [rightValue] at second
              exact second
          | ok b =>
              rw [leftValue] at first
              rw [rightValue] at second
              exact op.apply_ordinary first second

namespace Chain.Basic

section

variable {chain : Chain} (basic : chain.Basic)

include basic

/-- On basic levels a reference gives a basic value, or the name is undefined. -/
theorem lookup (name : String)
    : Ordinary (chain.lookup name) := by
  rw [Chain.lookup]
  cases found : chain.lookup? name with
  | none => rfl
  | some v => exact basic.lookup? found

/-- On basic levels every expression ends in a basic value or an ordinary fault. -/
theorem evaluate (e : Expr)
    : Ordinary (chain.evaluate e) :=
  Expr.eval_ordinary basic.lookup e

theorem value {e : Expr} {v : Value} (gives : chain.evaluate e = .ok v)
    : v.toDatum.Basic := by
  have ordinary := basic.evaluate e
  rw [gives] at ordinary
  exact ordinary

theorem fault {e : Expr} {fault : Fault} (fails : chain.evaluate e = .error fault)
    : fault.isOrdinary = true := by
  have ordinary := basic.evaluate e
  rw [fails] at ordinary
  exact ordinary

/-- A test that fails does so as its expression does, or because it is no boolean. -/
theorem fault_of_test {kind : StmtKind} {condition : Expr} {fault : Fault}
    (fails : chain.test kind condition = .error fault)
    : fault.isOrdinary = true := by
  cases value : chain.evaluate condition with
  | error cause =>
      simp only [test, value, Except.error.injEq] at fails
      exact fails ▸ basic.fault value
  | ok v =>
      cases v with
      | boolean b => simp [test, value] at fails
      | number n =>
          simp only [test, value, Except.error.injEq] at fails
          rw [← fails]
          rfl

theorem level
    : chain.level.Holds Datum.Basic :=
  basic chain.level List.mem_cons_self

/-- A new current level in the place of the old one. -/
theorem replace {level : Level} (new : level.Holds Datum.Basic)
    : Chain.Basic { level, outer := chain.outer } :=
  List.forall_mem_cons.mpr ⟨new, (List.forall_mem_cons.mp basic).2⟩

/-- The chain of a block is a copy of a basic level on basic levels. -/
theorem child
    : chain.child.Basic :=
  List.forall_mem_cons.mpr ⟨basic.level, basic⟩

end

theorem root
    : (Chain.root .empty).Basic :=
  List.forall_mem_cons.mpr ⟨Level.Holds.empty, nofun⟩

end Chain.Basic

-----------------------------------------------------------------------------------------
-- Runs on basic levels
-----------------------------------------------------------------------------------------

section

variable {σ : Type} {sink : Sink σ} {code : Code} {site : Site} {outer : List Level}
  {c c' : Config σ} {steps : List Step} {outcome : Outcome}

/-- Whatever happens in a run on basic levels is basic, and so is the level that it leaves, be it
that the run completes or not. -/
theorem Runs.basic (run : Runs sink code site outer c steps outcome c')
    (basic : (c.chain outer).Basic)
    : (∀ step ∈ steps, step.Basic) ∧ c'.level.Holds Datum.Basic := by
  induction run with
  | enter _ ih =>
      rw [List.forall_mem_cons]
      exact ⟨⟨basic, (ih basic).1⟩, (ih basic).2⟩
  | duplicate _ | undeclared _ | loopCut | nil => exact ⟨nofun, basic.level⟩
  | declareFault _ _ | assignFault _ _ | printFault _ | branchFault _ | loopFault _ | loopEnd _ =>
      rw [List.forall_mem_singleton]
      exact ⟨basic, basic.level⟩
  | declare _ gives next | assign _ gives next =>
      have value := basic.value gives
      subst next
      simp only [List.forall_mem_cons]
      exact ⟨⟨basic, ⟨value, basic.replace (basic.level.set _ value)⟩, nofun⟩,
        basic.level.set _ value⟩
  | print gives _ =>
      simp only [List.forall_mem_cons]
      exact ⟨⟨basic, basic.value gives, nofun⟩, basic.level⟩
  | branch _ _ ih | loopStopped _ _ _ ih =>
      rw [List.forall_mem_cons]
      exact ⟨⟨basic, (ih basic).1⟩, (ih basic).2⟩
  | loopAgain _ _ _ first again =>
      obtain ⟨firstSteps, level⟩ := first basic
      obtain ⟨laterSteps, final⟩ := again (basic.replace level)
      rw [List.forall_mem_cons, List.forall_mem_append]
      exact ⟨⟨basic, firstSteps, laterSteps⟩, final⟩
  | block _ next ih =>
      obtain ⟨inside, inner⟩ := ih basic.child
      have level := basic.level.mergeBack inner
      subst next
      rw [List.forall_mem_append, List.forall_mem_singleton]
      exact ⟨⟨inside, basic.replace level⟩, level⟩
  | blockStopped _ _ next ih =>
      subst next
      exact ⟨(ih basic.child).1, basic.level⟩
  | stopped _ _ ih => exact ih basic
  | next _ _ first later =>
      obtain ⟨firstSteps, level⟩ := first basic
      obtain ⟨laterSteps, final⟩ := later (basic.replace level)
      rw [List.forall_mem_append]
      exact ⟨⟨firstSteps, laterSteps⟩, final⟩

/-- The last step hands a value to the sink, which has received all values before it and refuses
this one. -/
def Sink.Refuses (sink : Sink σ) (output : σ) (steps : List Step) (cause : Halt) : Prop :=
  ∃ earlier v,
    steps = earlier ++ [.emitted v]
    ∧ (sink.emit v.toDatum (sink.receive output (emitted earlier))).2 = some cause

/-- A refusal at the end of later steps is one at the end of all steps. -/
theorem Sink.Refuses.after (first : List Step) {output : σ} {later : List Step} {cause : Halt}
    (refuses : sink.Refuses (sink.receive output (emitted first)) later cause)
    : sink.Refuses output (first ++ later) cause := by
  obtain ⟨earlier, v, rfl, refused⟩ := refuses
  refine ⟨first ++ earlier, v, by rw [List.append_assoc], ?_⟩
  rw [emitted_append, Sink.receive_append]
  exact refused

/-- Why a run on basic levels halts. -/
theorem Runs.halts_for (run : Runs sink code site outer c steps outcome c')
    (basic : (c.chain outer).Basic) {cause : Halt} (halts : outcome = .halted cause)
    : (∃ fault, cause = .fault fault ∧ fault.isOrdinary = true)
      ∨ sink.Refuses c.output steps cause := by
  induction run with
  | enter _ ih => exact (ih basic halts).imp_right fun refuses => .after [_] refuses
  | duplicate _ | undeclared _ =>
      cases halts
      exact Or.inl ⟨_, rfl, rfl⟩
  | declareFault _ fails | assignFault _ fails | printFault fails =>
      cases halts
      exact Or.inl ⟨_, rfl, basic.fault fails⟩
  | branchFault fails | loopFault fails =>
      cases halts
      exact Or.inl ⟨_, rfl, basic.fault_of_test fails⟩
  | @print value site outer c v output refusal _ emits =>
      cases refusal with
      | none => cases halts
      | some refused =>
          cases halts
          exact Or.inr ⟨[.evaluated site value (c.chain outer)], v, rfl, congrArg Prod.snd emits⟩
  | branch _ _ ih | loopStopped _ _ _ ih =>
      exact (ih basic halts).imp_right fun refuses => .after [_] refuses
  | loopAgain _ round _ _ again =>
      have level := (round.basic basic).2
      refine (again (basic.replace level) halts).imp_right fun refuses => ?_
      rw [round.output_eq_receive] at refuses
      exact .after [_] (.after _ refuses)
  | blockStopped _ _ _ ih => exact ih basic.child halts
  | stopped _ _ ih => exact ih basic halts
  | next runs _ _ later =>
      have level := (runs.basic basic).2
      refine (later (basic.replace level) halts).imp_right fun refuses => ?_
      rw [runs.output_eq_receive] at refuses
      exact .after _ refuses
  | declare _ _ _ | assign _ _ _ | loopEnd _ | loopCut | block _ _ | nil => cases halts

end

-----------------------------------------------------------------------------------------
-- Channels
-----------------------------------------------------------------------------------------

/-- No channel refuses a value, except a function that has taken as many as it may. -/
theorem Channel.refusal_of_emit {channel : Channel} {v : Value} {t : Transcript} {cause : Halt}
    (refused : (channel.sink.emit v.toDatum t).2 = some cause)
    : (∃ capacity, channel = .function (some capacity)) ∧ cause = .refused "sink failed" := by
  cases channel with
  | collector | receiver => cases refused
  | stream => simp [Channel.sink, Datum.display] at refused
  | function capacity =>
      cases capacity with
      | none => cases refused
      | some capacity =>
          simp only [Channel.sink] at refused
          split at refused
          · cases refused
          · exact ⟨⟨capacity, rfl⟩, (Option.some.inj refused).symm⟩

/-- A channel takes over a value or leaves its transcript's values as they were. -/
theorem Channel.emit_values (channel : Channel) (v : Value) (t : Transcript)
    : (channel.sink.emit v.toDatum t).1.values = t.values
      ∨ (channel.sink.emit v.toDatum t).1.values = t.values.push v.toDatum := by
  cases channel with
  | collector | receiver => exact Or.inr rfl
  | stream =>
      left
      simp [Channel.sink, Datum.display]
  | function capacity =>
      cases capacity with
      | none => exact Or.inr rfl
      | some capacity =>
          simp only [Channel.sink]
          split
          · exact Or.inr rfl
          · exact Or.inl rfl

/-- A transcript holds nothing but what was printed. -/
theorem Channel.basic_of_receive {channel : Channel} {values : List Value}
    (basic : ∀ v ∈ values, v.toDatum.Basic) {t : Transcript} (before : ∀ d ∈ t.values, d.Basic)
    : ∀ d ∈ (channel.sink.receive t values).values, d.Basic := by
  induction values generalizing t with
  | nil => exact before
  | cons v rest ih =>
      obtain ⟨head, tail⟩ := List.forall_mem_cons.mp basic
      apply ih tail
      rcases channel.emit_values v t with same | pushed
      · rw [same]
        exact before
      · intro d member
        rw [pushed, Array.mem_push] at member
        rcases member with old | rfl
        · exact before d old
        · exact head

/-- Only a function is resolved to one. -/
theorem Output.function_of_resolve {output : Output} {capacity : Option Nat}
    (channels : output.resolve = .ok (.function capacity))
    : output = .function capacity := by
  cases output <;> cases channels
  rfl

/-- What basic steps print is basic. -/
theorem emitted_basic {steps : List Step} (basic : ∀ step ∈ steps, step.Basic)
    : ∀ v ∈ emitted steps, v.toDatum.Basic := by
  intro v member
  obtain ⟨step, inside, emits⟩ := List.mem_filterMap.mp member
  cases step with
  | emitted w =>
      cases emits
      exact basic _ inside
  | entered _ _ _ | evaluated _ _ _ | declared _ _ _ | assigned _ _ _ | merged _ => cases emits

/-- Statements that are executed as nodes are all of a kind that can be executed. -/
theorem Node.execAll_stmts {σ : Type} (s : Setting σ) (stmts : List Stmt) (outer : List Level)
    (m : Machine σ)
    : Node.execAll s (stmts.map .stmt) outer m = Stmt.execAll s stmts outer m := by
  induction stmts generalizing m with
  | nil => rfl
  | cons stmt rest ih =>
      simp only [List.map_cons, Node.execAll, Node.exec, Stmt.execAll]
      rcases stmt.exec s outer m with ⟨outcome, m₁⟩
      cases outcome with
      | completed => exact ih m₁
      | halted cause => rfl
      | unfinished => rfl

/-- In every run of a program from the empty root, finished or not, also when its statements are
executed as nodes, all levels bind booleans and doubles only, and only these are printed; and a run
that halts does so for an ordinary fault, or because the sink refuses the value printed last. The
printer refuses no statements, and the text of each has a first line for the log. Whatever a program
is loaded from, with or without a log, its run returns and prints only booleans and doubles, and
halts only for an ordinary fault or because a function that receives the output refuses a value. -/
theorem Program.values_and_faults_are_closed
    : (∀ {σ : Type} (p : Program) (s : Setting σ) (output : σ),
        Node.execAll s (p.statements.map .stmt) [] { level := .empty, output } = p.exec s output
        ∧ p.EveryRun s output fun steps outcome c =>
            (∀ step ∈ steps, step.Basic)
            ∧ c.level.Holds Datum.Basic
            ∧ ∀ cause,
                outcome = .halted cause
                → (∃ fault, cause = .fault fault ∧ fault.isOrdinary = true)
                  ∨ s.sink.Refuses output steps cause)
      ∧ (∀ stmts : List Stmt,
          (SourceTarget.nodes (stmts.map .stmt)).source = .ok (Stmt.sourceAll stmts))
      ∧ (∀ stmt : Stmt, ∃ text, (SourceTarget.node (.stmt stmt)).source = .ok (text ++ "\n"))
      ∧ ∀ (target : RunTarget) (output : Output) (recording : Bool) (limit : Nat),
          let report := run target output recording limit
          (∀ level, report.ending = .ok level → level.Holds Datum.Basic)
          ∧ (∀ datum ∈ report.transcript.values, datum.Basic)
          ∧ ∀ cause,
              report.ending = .error (.halted cause)
              → (∃ fault, cause = .fault fault ∧ fault.isOrdinary = true)
                ∨ ((∃ capacity, output = .function (some capacity))
                  ∧ cause = .refused "sink failed") := by
  refine ⟨?_, SourceTarget.source_stmts, ?_, ?_⟩
  · intro σ p s output
    refine ⟨Node.execAll_stmts s _ _ _, Stmt.everyRun ?_⟩
    intro steps outcome c run
    obtain ⟨basic, level⟩ := run.basic Chain.Basic.root
    exact ⟨basic, level, fun cause => run.halts_for Chain.Basic.root⟩
  · intro stmt
    obtain ⟨text, ended⟩ := stmt.exists_layout_eq 0
    exact ⟨text, congrArg Except.ok (stmt.source_eq_layout.trans ended)⟩
  · intro target output recording limit report
    cases resolves : target.resolve with
    | error cause =>
        obtain ⟨ending, transcript⟩ := run_of_unresolved resolves output recording limit
        refine ⟨?_, ?_, ?_⟩
        · simp [report, ending]
        · simp [report, transcript]
        · intro halt ends
          rw [show report.ending = _ from ending, Except.error.injEq] at ends
          exact absurd (ends ▸ resolves) (target.resolve_ne_halted halt)
    | ok p =>
        cases channels : output.resolve with
        | error cause => simp [report, ScopedWhile.run, resolves, channels]
        | ok channel =>
            rcases result : p.exec { sink := channel.sink, recording, limit } {} with ⟨outcome, m⟩
            obtain ⟨ending, transcript⟩ := run_of_exec recording limit resolves channels result
            obtain ⟨steps, runs, _⟩ := p.exec_follows { sink := channel.sink, recording, limit } {}
            rw [result] at runs
            obtain ⟨basic, level⟩ := runs.basic Chain.Basic.root
            refine ⟨?_, ?_, ?_⟩
            · intro final ends
              rw [show report.ending = _ from ending] at ends
              cases outcome <;> cases ends
              exact level
            · rw [show report.transcript = _ from transcript,
                show m.output = _ from runs.output_eq_receive]
              exact Channel.basic_of_receive (t := {}) (emitted_basic basic) (by simp)
            · intro cause ends
              rw [show report.ending = _ from ending] at ends
              cases outcome <;> cases ends
              refine (runs.halts_for Chain.Basic.root rfl).imp_right ?_
              rintro ⟨earlier, v, _, refused⟩
              obtain ⟨⟨capacity, rfl⟩, said⟩ := Channel.refusal_of_emit refused
              exact ⟨⟨capacity, Output.function_of_resolve channels⟩, said⟩

/-- Prints a number, which it then divides by zero. -/
def Program.quotient : Program where
  statements :=
    [ .declare "x" (.number (.ofRank false binade)),
      .print (.var "x"),
      .print (.binary .div (.var "x") (.number (.zero true))) ]

/-- A division by zero after a print is an ordinary fault, and a function without room refuses the
print. -/
theorem Program.values_and_faults_are_closed_quotient
    : (∃ steps c,
        quotient.Runs Channel.collector.sink {} steps (.halted (.fault .divisionByZero)) c
        ∧ (∀ step ∈ steps, step.Basic)
        ∧ ((∃ fault, Halt.fault .divisionByZero = .fault fault ∧ fault.isOrdinary = true)
          ∨ Channel.collector.sink.Refuses {} steps (.fault .divisionByZero)))
      ∧ (run (.program (.ok quotient)) (.function (some 0)) true 0).ending
        = .error (.halted (.refused "sink failed"))
      ∧ ((∃ fault, Halt.refused "sink failed" = .fault fault ∧ fault.isOrdinary = true)
        ∨ ((∃ capacity, Output.function (some 0) = .function (some capacity))
          ∧ Halt.refused "sink failed" = .refused "sink failed")) := by
  obtain ⟨runs, _, _, reports⟩ := values_and_faults_are_closed
  obtain ⟨steps, c, run⟩
      : ∃ steps c,
          quotient.Runs Channel.collector.sink {} steps (.halted (.fault .divisionByZero)) c :=
    ⟨_, _,
      .next (.enter (.declare (by decide) rfl rfl))
        (.next (.enter (.print rfl rfl)) (.stopped (.enter (.printFault rfl)) nofun))⟩
  obtain ⟨_, closed⟩ := runs quotient
    { sink := Channel.collector.sink, recording := false, limit := 0 } {}
  obtain ⟨basic, _, halts⟩ := closed.of_runs steps _ c run
  have refused : (ScopedWhile.run (.program (.ok quotient)) (.function (some 0)) true 0).ending
      = .error (.halted (.refused "sink failed")) := rfl
  obtain ⟨_, _, causes⟩ := reports (.program (.ok quotient)) (.function (some 0)) true 0
  exact ⟨⟨steps, c, run, basic, halts _ rfl⟩, refused, causes _ refused⟩

end ScopedWhile
