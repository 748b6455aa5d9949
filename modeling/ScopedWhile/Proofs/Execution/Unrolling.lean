import ScopedWhile.Proofs.Execution.Independence

/-!
Loops unrolled. A loop that completes after some number of rounds does what as many branches with
its test and its body do one after another, each of which finds the test true, with the test false
at the end; a loop that fails in some round fails as the branch in the place of that round. Both
leave the same level and the same output, whatever the sink; only the histories tell them apart.
-/

namespace ScopedWhile

variable {σ : Type}

namespace Machine

/-- A loop once it is entered, with at most the given number of tests. -/
def loop (s : Setting σ) (outer : List Level) (condition : Expr) (body : List Stmt)
    : Nat → Machine σ → Result σ :=
  iterate (test outer .loop condition) (block s outer (Stmt.execAll s body))

/-- How many rounds such a loop finishes. -/
def loopRounds (s : Setting σ) (outer : List Level) (condition : Expr) (body : List Stmt)
    : Nat → Machine σ → Nat
  | 0, _ => 0
  | tests + 1, m => match m.test outer .loop condition with
    | .ok true => match m.block s outer (Stmt.execAll s body) with
      | (.completed, m) => loopRounds s outer condition body tests m + 1
      | _ => 0
    | _ => 0

end Machine

namespace Stmt

/-- How many rounds the execution of a loop finishes. -/
def rounds (s : Setting σ) (condition : Expr) (body : List Stmt) (outer : List Level)
    (m : Machine σ) : Nat :=
  Machine.loopRounds s outer condition body s.limit
    (m.record s (.entered (.loop condition body) (m.chain outer)))

/-- Under some limit on the rounds of loops, statements have this result. -/
def Ends (s : Setting σ) (stmts : List Stmt) (outer : List Level) (m : Machine σ)
    (result : Result σ) : Prop :=
  ∃ limit, execAll (s.within limit) stmts outer m = result

/-- Under some limit on the rounds of loops, a loop finishes exactly `k` rounds and has this
result. -/
def LoopEnds (s : Setting σ) (condition : Expr) (body : List Stmt) (outer : List Level)
    (m : Machine σ) (k : Nat) (result : Result σ) : Prop :=
  ∃ limit,
    (Stmt.loop condition body).exec (s.within limit) outer m = result
    ∧ rounds (s.within limit) condition body outer m = k

end Stmt

-----------------------------------------------------------------------------------------
-- The history has no influence
-----------------------------------------------------------------------------------------

/-- Two results that differ in their histories at most. -/
structure Result.Alike (result result' : Result σ) : Prop where
  outcome : result'.1 = result.1
  config : result'.2.config = result.2.config

section

variable {s : Setting σ} {outer : List Level} {m m' : Machine σ} {body : List Stmt}

theorem Machine.level_of_config (same : m'.config = m.config)
    : m'.level = m.level :=
  congrArg Config.level same

theorem Machine.output_of_config (same : m'.config = m.config)
    : m'.output = m.output :=
  congrArg Config.output same

/-- The chain depends on the configuration only. -/
theorem Machine.chain_of_config (same : m'.config = m.config) (outer : List Level)
    : m'.chain outer = m.chain outer := by
  rw [chain_eq, chain_eq, same]

/-- Statements do not depend on the history of events. -/
theorem Stmt.execAll_alike (same : m'.config = m.config) (stmts : List Stmt)
    : Result.Alike (execAll s stmts outer m) (execAll s stmts outer m') := by
  obtain ⟨outcome, output, data, added, names, names'⟩ :=
    execAll_congr (fun _ => True) Eq s.sink.answers_eq (fun _ _ => trivial) outer m m'
      (fun name _ => by rw [Machine.level_of_config same]) (Machine.output_of_config same).symm
  refine ⟨outcome, ?_⟩
  have level : (execAll s stmts outer m').2.level = (execAll s stmts outer m).2.level := by
    apply Level.ext_get?
    · rw [names, names', Machine.level_of_config same]
    · exact fun name => data name trivial
  simp only [Machine.config, level, output]

/-- A block does not depend on the history of events. -/
theorem Machine.block_alike (same : m'.config = m.config)
    : Result.Alike (m.block s outer (Stmt.execAll s body))
        (m'.block s outer (Stmt.execAll s body)) := by
  have level := level_of_config same
  have inside : Result.Alike (Stmt.execAll s body (m.level :: outer) m)
      (Stmt.execAll s body (m.level :: outer) m') := Stmt.execAll_alike same body
  rcases result : Stmt.execAll s body (m.level :: outer) m with ⟨outcome, inner⟩
  rcases result' : Stmt.execAll s body (m.level :: outer) m' with ⟨outcome', inner'⟩
  rw [result, result'] at inside
  rw [← level] at result'
  obtain ⟨outcomes, configs⟩ := inside
  obtain rfl : outcome' = outcome := outcomes
  have innerLevel : inner'.level = inner.level := level_of_config configs
  have innerOutput : inner'.output = inner.output := output_of_config configs
  by_cases completes : outcome' = .completed
  · subst completes
    rw [block_of_completed result, block_of_completed result']
    refine ⟨rfl, ?_⟩
    simp only [config_record]
    simp only [config, level, innerLevel, innerOutput]
  · rw [block_of_stopped result completes, block_of_stopped result' completes]
    refine ⟨rfl, ?_⟩
    simp only [config, level, innerOutput]

/-- The test of a loop and the test of a branch hold together. -/
theorem Machine.test_eq_ok {kind : StmtKind} {condition : Expr} {b : Bool}
    : m.test outer kind condition = .ok b
      ↔ (m.chain outer).evaluate condition = .ok (.boolean b) := by
  simp only [test]
  cases (m.chain outer).evaluate condition with
  | error fault => simp
  | ok v => cases v <;> simp

/-- A branch whose test holds does what its block does. -/
theorem Stmt.exec_branch_of_true (s : Setting σ) {condition : Expr} (body other : List Stmt)
    (same : m'.config = m.config)
    (holds : (m.chain outer).evaluate condition = .ok (.boolean true))
    : Result.Alike (m.block s outer (execAll s body))
        ((Stmt.branch condition body other).exec s outer m') := by
  have entered
      : (m'.record s (.entered (.branch condition body other) (m'.chain outer))).config
        = m.config := (Machine.config_record _ _ _).trans same
  rw [← Machine.chain_of_config entered] at holds
  have tested : Machine.test outer .branch condition _ = .ok true := Machine.test_eq_ok.mpr holds
  simp only [exec, tested]
  exact Machine.block_alike entered

theorem Result.eq_of_outcome {result : Result σ} {outcome : Outcome} (ends : result.1 = outcome)
    : result = (outcome, result.2) := by
  rw [← ends]

theorem Result.Alike.symm {result result' : Result σ} (alike : Result.Alike result result')
    : Result.Alike result' result :=
  ⟨alike.outcome.symm, alike.config.symm⟩

/-- A result like another has its outcome and a machine of the same configuration. -/
theorem Result.Alike.exists_eq {outcome : Outcome} {result : Result σ}
    (alike : Result.Alike (outcome, m) result)
    : ∃ m', result = (outcome, m') ∧ m'.config = m.config :=
  ⟨result.2, Prod.ext alike.outcome rfl, alike.config⟩

/-- Statements in two parts are executed one part after the other. -/
theorem Stmt.execAll_append (s : Setting σ) (first later : List Stmt) (outer : List Level)
    (m : Machine σ)
    : execAll s (first ++ later) outer m
      = Result.andThen (execAll s first outer m) (execAll s later outer) := by
  induction first generalizing m with
  | nil => rfl
  | cons stmt rest ih =>
      rw [List.cons_append, execAll_cons, execAll_cons]
      rcases stmt.exec s outer m with ⟨outcome, m₁⟩
      cases outcome with
      | completed => exact ih m₁
      | halted cause | unfinished => rfl

end

-----------------------------------------------------------------------------------------
-- Rounds and branches
-----------------------------------------------------------------------------------------

/-- Where all copies of a statement complete, so do the first ones. -/
theorem Stmt.execAll_replicate_of_le {s : Setting σ} {stmt : Stmt} {outer : List Level}
    {m m' : Machine σ} {i k : Nat}
    (completes : execAll s (.replicate k stmt) outer m = (.completed, m')) (le : i ≤ k)
    : ∃ middle, execAll s (.replicate i stmt) outer m = (.completed, middle) := by
  obtain ⟨more, rfl⟩ := Nat.exists_eq_add_of_le le
  rw [← List.replicate_append_replicate, execAll_append] at completes
  obtain ⟨middle, first, _⟩ := Result.eq_completed_of_andThen completes
  exact ⟨middle, first⟩

/-- The body of a loop, once, under its test. -/
def Stmt.once (condition : Expr) (body : List Stmt) : Stmt :=
  .branch condition body []

section

variable {s : Setting σ} {outer : List Level} {condition : Expr} {body : List Stmt}
  {m reached : Machine σ} {k : Nat}

/-- As many branches as rounds complete in the same configuration. -/
theorem Rounds.branches (rounds : Rounds s outer condition body k m reached) {start : Machine σ}
    (same : start.config = m.config)
    : ∃ final,
        Stmt.execAll s (.replicate k (.once condition body)) outer start = (.completed, final)
        ∧ final.config = reached.config := by
  induction rounds generalizing start with
  | none => exact ⟨start, rfl, same⟩
  | more holds round _ ih =>
      have alike := Stmt.exec_branch_of_true s body [] same (Machine.test_eq_ok.mp holds)
      rw [round] at alike
      obtain ⟨next, first, config⟩ := alike.exists_eq
      obtain ⟨final, others, reaches⟩ := ih config
      refine ⟨final, ?_, reaches⟩
      rw [List.replicate_succ, Stmt.execAll_cons, Stmt.once, first]
      exact others

/-- Branches that complete, each having found the test true, are rounds. -/
theorem Rounds.of_branches {start : Machine σ} (same : start.config = m.config)
    (branches : ∀ i < k, ∃ mᵢ,
      Stmt.execAll s (.replicate i (.once condition body)) outer start = (.completed, mᵢ)
      ∧ (mᵢ.chain outer).evaluate condition = .ok (.boolean true))
    {final : Machine σ}
    (completes : Stmt.execAll s (.replicate k (.once condition body)) outer start
      = (.completed, final))
    : ∃ reached,
        Rounds s outer condition body k m reached ∧ reached.config = final.config := by
  induction k generalizing m start with
  | zero =>
      cases completes
      exact ⟨m, .none, same.symm⟩
  | succ k ih =>
      rw [List.replicate_succ, Stmt.execAll_cons] at completes
      obtain ⟨next, first, others⟩ := Result.eq_completed_of_andThen completes
      obtain ⟨m₀, unmoved, holds⟩ := branches 0 (Nat.succ_pos k)
      cases unmoved
      rw [Machine.chain_of_config same] at holds
      have alike := (Stmt.exec_branch_of_true s body [] same holds).symm
      rw [← Stmt.once, first] at alike
      obtain ⟨m₁, round, config⟩ := alike.exists_eq
      have laterBranches : ∀ i < k, ∃ mᵢ,
          Stmt.execAll s (.replicate i (.once condition body)) outer next = (.completed, mᵢ)
          ∧ (mᵢ.chain outer).evaluate condition = .ok (.boolean true) := by
        intro i less
        obtain ⟨mᵢ, upTo, holdsThere⟩ := branches (i + 1) (Nat.succ_lt_succ less)
        rw [List.replicate_succ, Stmt.execAll_cons, first] at upTo
        exact ⟨mᵢ, upTo, holdsThere⟩
      obtain ⟨reached, rounds, reaches⟩ := ih config.symm laterBranches others
      exact ⟨reached, .more (Machine.test_eq_ok.mpr holds) round rounds, reaches⟩

/-- Rounds can be split after any number of them. -/
theorem Rounds.split (rounds : Rounds s outer condition body k m reached) {i : Nat} (le : i ≤ k)
    : ∃ middle,
        Rounds s outer condition body i m middle
        ∧ Rounds s outer condition body (k - i) middle reached := by
  induction rounds generalizing i with
  | none =>
      obtain rfl : i = 0 := Nat.le_zero.mp le
      exact ⟨_, .none, .none⟩
  | more holds round others ih =>
      cases i with
      | zero => exact ⟨_, .none, .more holds round others⟩
      | succ i =>
          obtain ⟨middle, first, later⟩ := ih (Nat.le_of_succ_le_succ le)
          rw [Nat.succ_sub_succ]
          exact ⟨middle, .more holds round first, later⟩

/-- Before the first round the condition holds. -/
theorem Rounds.test_of_pos (rounds : Rounds s outer condition body k m reached) (pos : 0 < k)
    : (m.chain outer).evaluate condition = .ok (.boolean true) := by
  cases rounds with
  | none => cases pos
  | more holds _ _ => exact Machine.test_eq_ok.mp holds

/-- The test between the branches is true, and it is false after the last of them if the rounds end
so. -/
theorem Rounds.tests (rounds : Rounds s outer condition body k m reached)
    (ends : (reached.chain outer).evaluate condition = .ok (.boolean false)) {start : Machine σ}
    (same : start.config = m.config) {i : Nat} (le : i ≤ k)
    : ∃ mᵢ,
        Stmt.execAll s (.replicate i (.once condition body)) outer start = (.completed, mᵢ)
        ∧ (mᵢ.chain outer).evaluate condition = .ok (.boolean (decide (i < k))) := by
  by_cases less : i < k
  · obtain ⟨middle, first, later⟩ := rounds.split le
    obtain ⟨mᵢ, completes, config⟩ := first.branches same
    refine ⟨mᵢ, completes, ?_⟩
    rw [Machine.chain_of_config config, decide_eq_true less]
    exact later.test_of_pos (Nat.sub_pos_of_lt less)
  · obtain rfl : i = k := Nat.le_antisymm le (Nat.not_lt.mp less)
    obtain ⟨mᵢ, completes, config⟩ := rounds.branches same
    refine ⟨mᵢ, completes, ?_⟩
    rw [Machine.chain_of_config config, decide_eq_false less]
    exact ends

-----------------------------------------------------------------------------------------
-- Rounds of a loop
-----------------------------------------------------------------------------------------

/-- How a loop ends after its finished rounds. -/
inductive LoopEnding (s : Setting σ) (outer : List Level) (condition : Expr) (body : List Stmt)
    (reached : Machine σ) : Result σ → Prop where
  | outOfTests : LoopEnding s outer condition body reached (.unfinished, reached)
  | testFails {fault} (fails : reached.test outer .loop condition = .error fault)
    : LoopEnding s outer condition body reached (.halted (.fault fault), reached)
  | testFalse (ends : reached.test outer .loop condition = .ok false)
    : LoopEnding s outer condition body reached (.completed, reached)
  | bodyStops {outcome m'} (holds : reached.test outer .loop condition = .ok true)
    (round : reached.block s outer (Stmt.execAll s body) = (outcome, m'))
    (stops : outcome ≠ .completed)
    : LoopEnding s outer condition body reached (outcome, m')

/-- A loop completes only where its test is false. -/
theorem LoopEnding.of_completed {m' : Machine σ}
    (ending : LoopEnding s outer condition body reached (.completed, m'))
    : reached.test outer .loop condition = .ok false ∧ m' = reached := by
  cases ending with
  | testFalse ends => exact ⟨ends, rfl⟩
  | bodyStops _ _ stops => exact absurd rfl stops

/-- A loop goes some rounds and then has one of the four endings, by induction on the tests it may
make. -/
theorem Machine.loop_ends (s : Setting σ) (outer : List Level) (condition : Expr)
    (body : List Stmt) (tests : Nat) (m : Machine σ)
    : ∃ reached,
        Rounds s outer condition body (loopRounds s outer condition body tests m) m reached
        ∧ LoopEnding s outer condition body reached (loop s outer condition body tests m) := by
  induction tests generalizing m with
  | zero => exact ⟨m, .none, .outOfTests⟩
  | succ tests ih =>
      cases gives : m.test outer .loop condition with
      | error fault =>
          simp only [loopRounds, loop, iterate, gives]
          exact ⟨m, .none, .testFails gives⟩
      | ok b =>
          cases b with
          | false =>
              simp only [loopRounds, loop, iterate, gives]
              exact ⟨m, .none, .testFalse gives⟩
          | true =>
              rcases round : m.block s outer (Stmt.execAll s body) with ⟨outcome, m₁⟩
              cases outcome with
              | completed =>
                  obtain ⟨reached, rounds, ending⟩ := ih m₁
                  simp only [loopRounds, loop, iterate, gives, round]
                  exact ⟨reached, .more gives round rounds, ending⟩
              | halted cause | unfinished =>
                  simp only [loopRounds, loop, iterate, gives, round]
                  exact ⟨m, .none, .bodyStops gives round (by simp)⟩

/-- A loop goes on from its first rounds with the tests that are left. -/
theorem Rounds.loop (rounds : Rounds s outer condition body k m reached) (left : Nat)
    : Machine.loop s outer condition body (k + left) m
        = Machine.loop s outer condition body left reached
      ∧ Machine.loopRounds s outer condition body (k + left) m
        = k + Machine.loopRounds s outer condition body left reached := by
  induction rounds with
  | none => simp only [Nat.zero_add, and_self]
  | more holds round _ ih =>
      rw [Nat.add_right_comm]
      simp only [Machine.loop, Machine.iterate, Machine.loopRounds, holds, round]
      exact ⟨ih.1, by omega⟩

/-- A loop whose test is false after some rounds completes there, if it may make one test more than
rounds. -/
theorem Rounds.loop_of_false (rounds : Rounds s outer condition body k m reached)
    (ends : reached.test outer .loop condition = .ok false) {tests : Nat} (enough : k < tests)
    : Machine.loop s outer condition body tests m = (.completed, reached)
      ∧ Machine.loopRounds s outer condition body tests m = k := by
  obtain ⟨left, rfl⟩ : ∃ left, tests = k + (left + 1) := ⟨tests - k - 1, by omega⟩
  obtain ⟨result, count⟩ := rounds.loop (left + 1)
  rw [result, count]
  simp only [Machine.loop, Machine.iterate, Machine.loopRounds, ends, Nat.add_zero, and_self]

-----------------------------------------------------------------------------------------
-- Without a limit
-----------------------------------------------------------------------------------------

/-- More rounds do not change a finished result. -/
theorem Stmt.execAll_within {stmts : List Stmt} {limit more : Nat} {result : Result σ}
    (ends : execAll (s.within limit) stmts outer m = result) (finished : result.1 ≠ .unfinished)
    (le : limit ≤ more)
    : execAll (s.within more) stmts outer m = result := by
  subst ends
  exact execAll_keeps (s.within limit) le stmts outer m finished

/-- The finished result of statements does not depend on the limit. -/
theorem Stmt.Ends.unique {stmts : List Stmt} {result result' : Result σ}
    (ends : Ends s stmts outer m result) (finished : result.1 ≠ .unfinished)
    (ends' : Ends s stmts outer m result') (finished' : result'.1 ≠ .unfinished)
    : result = result' := by
  obtain ⟨limit, result₁⟩ := ends
  obtain ⟨limit', result₂⟩ := ends'
  have first := execAll_within result₁ finished (Nat.le_max_left limit limit')
  have second := execAll_within result₂ finished' (Nat.le_max_right limit limit')
  exact first.symm.trans second

/-- To execute a loop is to record it and then to go round. -/
theorem Stmt.exec_loop (s : Setting σ) (condition : Expr) (body : List Stmt) (outer : List Level)
    (m : Machine σ)
    : (Stmt.loop condition body).exec s outer m
      = Machine.loop s outer condition body s.limit
          (m.record s (.entered (.loop condition body) (m.chain outer))) := by
  simp only [exec]
  rfl

/-- A loop with some result has finished its rounds from a machine of the same configuration. -/
theorem Stmt.LoopEnds.exists_rounds {result : Result σ}
    (ends : LoopEnds s condition body outer m k result)
    : ∃ limit start reached,
        start.config = m.config
        ∧ Rounds (s.within limit) outer condition body k start reached
        ∧ LoopEnding (s.within limit) outer condition body reached result := by
  obtain ⟨limit, executed, counted⟩ := ends
  obtain ⟨reached, rounds, ending⟩ := Machine.loop_ends (s.within limit) outer condition body
    (s.within limit).limit
    (m.record (s.within limit) (.entered (.loop condition body) (m.chain outer)))
  rw [← Stmt.exec_loop, executed] at ending
  rw [← Stmt.rounds, counted] at rounds
  exact ⟨limit, _, reached, Machine.config_record _ _ _, rounds, ending⟩

/-- Branches that complete, with the test true before each and false at the end, make a loop that
completes: all of them complete under one limit, which leaves the loop enough rounds. -/
theorem Stmt.LoopEnds.of_branches
    (branches : ∀ i ≤ k, ∃ mᵢ,
      Ends s (.replicate i (.once condition body)) outer m (.completed, mᵢ)
      ∧ (mᵢ.chain outer).evaluate condition = .ok (.boolean (decide (i < k))))
    : ∃ m', LoopEnds s condition body outer m k (.completed, m') := by
  obtain ⟨mₖ, ⟨limit, completes⟩, testFalse⟩ := branches k (Nat.le_refl k)
  rw [decide_eq_false (Nat.lt_irrefl k)] at testFalse
  obtain ⟨more, le, enough⟩ : ∃ more, limit ≤ more ∧ k < more :=
    ⟨max limit (k + 1), Nat.le_max_left _ _, Nat.le_max_right _ _⟩
  have completes' := execAll_within completes nofun le
  have earlier : ∀ i < k, ∃ mᵢ,
      execAll (s.within more) (.replicate i (.once condition body)) outer m = (.completed, mᵢ)
      ∧ (mᵢ.chain outer).evaluate condition = .ok (.boolean true) := by
    intro i less
    obtain ⟨mᵢ, ends, tested⟩ := branches i (Nat.le_of_lt less)
    rw [decide_eq_true less] at tested
    obtain ⟨middle, first⟩ := execAll_replicate_of_le completes' (Nat.le_of_lt less)
    cases Ends.unique ends nofun ⟨more, first⟩ nofun
    exact ⟨mᵢ, first, tested⟩
  have entered : m.config
      = (m.record (s.within more) (.entered (.loop condition body) (m.chain outer))).config :=
    (Machine.config_record _ _ _).symm
  obtain ⟨reached, rounds, config⟩ := Rounds.of_branches entered earlier completes'
  have ends : reached.test outer .loop condition = .ok false := by
    apply Machine.test_eq_ok.mpr
    rw [Machine.chain_of_config config]
    exact testFalse
  obtain ⟨result, count⟩ := rounds.loop_of_false ends enough
  exact ⟨reached, more, (exec_loop _ _ _ _ _).trans result, count⟩

end

-----------------------------------------------------------------------------------------
-- A round that fails
-----------------------------------------------------------------------------------------

/-- What a branch reports in the place of a round of a loop, given its test: the same cause, but a
test that is a number is reported under the branch's own name. -/
def Halt.OfBranch (test : Except Fault Value) (cause cause' : Halt) : Prop :=
  match test with
  | .ok (.number _) =>
      cause = .fault (.nonBooleanTest "while") ∧ cause' = .fault (.nonBooleanTest "if")
  | _ => cause' = cause

section

variable {s : Setting σ} {outer : List Level} {condition : Expr} {body : List Stmt}
  {m reached : Machine σ} {k : Nat}

/-- A branch whose test fails halts with the fault and changes nothing. -/
theorem Stmt.exec_branch_of_error {fault : Fault} {other : List Stmt}
    (fails : m.test outer .branch condition = .error fault)
    : ∃ m',
        (Stmt.branch condition body other).exec s outer m = (.halted (.fault fault), m')
        ∧ m'.config = m.config := by
  have entered
      : (m.record s (.entered (.branch condition body other) (m.chain outer))).config
        = m.config := Machine.config_record _ _ _
  rw [Machine.test_eq, ← entered, ← Machine.test_eq] at fails
  simp only [exec, fails]
  exact ⟨_, rfl, entered⟩

/-- A branch fails where the loop does, in the same configuration. -/
theorem LoopEnding.once {cause : Halt} {m' : Machine σ}
    (ending : LoopEnding s outer condition body reached (.halted cause, m'))
    (same : m.config = reached.config)
    : ∃ cause' m'',
        (Stmt.once condition body).exec s outer m = (.halted cause', m'')
        ∧ m''.config = m'.config
        ∧ Halt.OfBranch ((m.chain outer).evaluate condition) cause cause' := by
  have chains := Machine.chain_of_config same outer
  cases ending with
  | @testFails fault fails =>
      rw [chains]
      simp only [Machine.test] at fails
      cases value : (reached.chain outer).evaluate condition with
      | error fault' =>
          obtain rfl : fault' = fault := by simpa only [value, Except.error.injEq] using fails
          have fails' : m.test outer .branch condition = .error fault' := by
            simp only [Machine.test, chains, value]
          obtain ⟨m'', halts, config⟩ := Stmt.exec_branch_of_error fails'
          exact ⟨_, m'', halts, config.trans same, rfl⟩
      | ok v =>
          cases v with
          | boolean b =>
              simp only [value] at fails
              cases fails
          | number n =>
              simp only [value] at fails
              cases fails
              have fails' : m.test outer .branch condition = .error (.nonBooleanTest "if") := by
                simp only [Machine.test, chains, value]
                rfl
              obtain ⟨m'', halts, config⟩ := Stmt.exec_branch_of_error fails'
              exact ⟨_, m'', halts, config.trans same, rfl, rfl⟩
  | bodyStops holds round _ =>
      have alike := Stmt.exec_branch_of_true s body [] same (Machine.test_eq_ok.mp holds)
      rw [round] at alike
      obtain ⟨m'', halts, config⟩ := alike.exists_eq
      refine ⟨cause, m'', halts, config, ?_⟩
      rw [chains, Machine.test_eq_ok.mp holds]
      rfl

end

/-- From every machine on every chain of levels, for every number `k` and without a limit on loops:
a loop completes after exactly `k` rounds if and only if the branch with its test and body completes
`k` times in a row, the test being true before each and false at the end, and then both leave the
same level and the same output. A loop that fails in the round after these leaves what the branch
leaves that fails after `k` such branches, and for the same cause, up to how a test that is a number
is reported. -/
theorem Stmt.loop_unrolls_to_branches {σ : Type} (s : Setting σ) (condition : Expr)
    (body : List Stmt) (outer : List Level) (m : Machine σ) (k : Nat)
    : ((∃ m', LoopEnds s condition body outer m k (.completed, m'))
        ↔ ∀ i ≤ k, ∃ mᵢ,
            Ends s (.replicate i (.once condition body)) outer m (.completed, mᵢ)
            ∧ (mᵢ.chain outer).evaluate condition = .ok (.boolean (decide (i < k))))
      ∧ (∀ m' mₖ,
          LoopEnds s condition body outer m k (.completed, m')
          → Ends s (.replicate k (.once condition body)) outer m (.completed, mₖ)
          → mₖ.config = m'.config)
      ∧ ∀ cause m',
          LoopEnds s condition body outer m k (.halted cause, m')
          → ∃ mₖ cause' m'',
              Ends s (.replicate k (.once condition body)) outer m (.completed, mₖ)
              ∧ Ends s [.once condition body] outer mₖ (.halted cause', m'')
              ∧ Ends s (.replicate (k + 1) (.once condition body)) outer m (.halted cause', m'')
              ∧ m''.config = m'.config
              ∧ Halt.OfBranch ((mₖ.chain outer).evaluate condition) cause cause' := by
  refine ⟨⟨?_, ?_⟩, ?_, ?_⟩
  · rintro ⟨m', ends⟩ i le
    obtain ⟨limit, start, reached, same, rounds, ending⟩ := ends.exists_rounds
    obtain ⟨testFalse, _⟩ := ending.of_completed
    obtain ⟨mᵢ, completes, tested⟩ :=
      rounds.tests (Machine.test_eq_ok.mp testFalse) same.symm le
    exact ⟨mᵢ, ⟨limit, completes⟩, tested⟩
  · exact LoopEnds.of_branches
  · intro m' mₖ ends completes
    obtain ⟨limit, start, reached, same, rounds, ending⟩ := ends.exists_rounds
    obtain ⟨_, rfl⟩ := ending.of_completed
    obtain ⟨final, finished, config⟩ := rounds.branches same.symm
    cases Ends.unique completes nofun ⟨limit, finished⟩ nofun
    exact config
  · intro cause m' ends
    obtain ⟨limit, start, reached, same, rounds, ending⟩ := ends.exists_rounds
    obtain ⟨mₖ, completes, config⟩ := rounds.branches same.symm
    obtain ⟨cause', m'', halts, left, reported⟩ := ending.once config
    have last : execAll (s.within limit) [.once condition body] outer mₖ
        = (.halted cause', m'') := by
      rw [execAll_cons, halts]
      rfl
    refine ⟨mₖ, cause', m'', ⟨limit, completes⟩, ⟨limit, last⟩, ⟨limit, ?_⟩, left, reported⟩
    rw [List.replicate_succ', execAll_append, completes]
    exact last

/-- A loop of two rounds, and one that fails in its second round. -/
theorem Stmt.loop_unrolls_to_branches_ready
    : let s : Setting Transcript :=
        { sink := Channel.collector.sink, recording := false, limit := 3 }
      let turns : List Stmt :=
        [.assign "x" (.var "y"), .assign "y" (.boolean false), .print (.var "x")]
      let fails : List Stmt :=
        [.branch (.var "y") [.assign "y" (.boolean false)] [.print (.var "z")]]
      let ended := (Stmt.loop (.var "x") turns).exec s [] .ready
      let failed := (Stmt.loop (.var "x") fails).exec s [] .ready
      LoopEnds s (.var "x") turns [] .ready 2 (.completed, ended.2)
      ∧ (∃ m₂,
          Ends s (.replicate 2 (.once (.var "x") turns)) [] .ready (.completed, m₂)
          ∧ m₂.config = ended.2.config)
      ∧ LoopEnds s (.var "x") fails [] .ready 1
          (.halted (.fault (.undefinedVariable "z")), failed.2)
      ∧ ∃ cause m'',
          Ends s (.replicate 2 (.once (.var "x") fails)) [] .ready (.halted cause, m'')
          ∧ m''.config = failed.2.config := by
  intro s turns fails ended failed
  have limit : s.within 3 = s := rfl
  have completes : LoopEnds s (.var "x") turns [] .ready 2 (.completed, ended.2) := by
    refine ⟨3, ?_, ?_⟩ <;> rw [limit]
    · exact Result.eq_of_outcome (by decide +kernel)
    · decide +kernel
  have halts : LoopEnds s (.var "x") fails [] .ready 1
      (.halted (.fault (.undefinedVariable "z")), failed.2) := by
    refine ⟨3, ?_, ?_⟩ <;> rw [limit]
    · exact Result.eq_of_outcome (by decide +kernel)
    · decide +kernel
  obtain ⟨⟨unroll, _⟩, same, _⟩ := loop_unrolls_to_branches s (.var "x") turns [] .ready 2
  obtain ⟨m₂, branches, _⟩ := unroll ⟨_, completes⟩ 2 (Nat.le_refl 2)
  obtain ⟨_, _, failing⟩ := loop_unrolls_to_branches s (.var "x") fails [] .ready 1
  obtain ⟨_, cause, m'', _, _, stops, config, _⟩ := failing _ _ halts
  exact ⟨completes, ⟨m₂, branches, same _ _ completes branches⟩, halts, cause, m'', stops, config⟩

end ScopedWhile
