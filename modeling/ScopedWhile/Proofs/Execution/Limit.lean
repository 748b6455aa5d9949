import ScopedWhile.Proofs.Execution.Adequacy

/-!
The limit on the rounds of loops. An execution that finishes does so under every larger limit with
the same result, so that a finished run is the run of the program itself.
-/

namespace ScopedWhile

variable {σ : Type}

/-- The setting with another limit. -/
def Setting.within (s : Setting σ) (limit : Nat) : Setting σ :=
  { s with limit }

/-- What executions under a limit and under a larger one have in common: a finished result. -/
def Keeps (small large : Result σ) : Prop :=
  small.1 ≠ .unfinished → large = small

namespace Keeps

theorem of_eq {small large : Result σ} (same : large = small)
    : Keeps small large :=
  fun _ => same

/-- Two parts that keep their results keep them one after the other. -/
theorem andThen {small large : Result σ} {next next' : Machine σ → Result σ}
    (keeps : Keeps small large) (continues : ∀ m, Keeps (next m) (next' m))
    : Keeps (Result.andThen small next) (Result.andThen large next') := by
  obtain ⟨outcome, m⟩ := small
  cases outcome with
  | completed =>
      rw [keeps nofun]
      exact continues m
  | halted cause =>
      rw [keeps nofun]
      exact .of_eq rfl
  | unfinished => exact fun finishes => absurd rfl finishes

end Keeps

namespace Machine

variable {s : Setting σ} {limit : Nat} {outer : List Level}

theorem record_within (m : Machine σ) (event : Event)
    : m.record (s.within limit) event = m.record s event :=
  rfl

/-- A block keeps its result if its statements do. -/
theorem block_keeps {body body' : List Level → Machine σ → Result σ}
    (keeps : ∀ outer m, Keeps (body outer m) (body' outer m)) (m : Machine σ)
    : Keeps (m.block s outer body) (m.block (s.within limit) outer body') := by
  have inside := keeps (m.level :: outer) m
  rcases result : body (m.level :: outer) m with ⟨outcome, inner⟩
  rw [result] at inside
  cases outcome with
  | completed =>
      refine .of_eq ?_
      rw [block_of_completed result, block_of_completed (inside nofun)]
      rfl
  | halted cause =>
      refine .of_eq ?_
      rw [block_of_stopped result nofun, block_of_stopped (inside nofun) nofun]
  | unfinished =>
      rw [block_of_stopped result nofun]
      exact fun finishes => absurd rfl finishes

/-- By induction on the smaller number of rounds: as long as tests hold, both have a round left. -/
theorem iterate_keeps {test : Machine σ → Except Fault Bool} {body body' : Machine σ → Result σ}
    (keeps : ∀ m, Keeps (body m) (body' m)) {rounds more : Nat} (le : rounds ≤ more)
    (m : Machine σ)
    : Keeps (iterate test body rounds m) (iterate test body' more m) := by
  induction rounds generalizing more m with
  | zero => exact fun finishes => absurd rfl finishes
  | succ rounds ih =>
      obtain ⟨more, rfl⟩ : ∃ n, more = n + 1 := ⟨more - 1, by omega⟩
      cases gives : test m with
      | error fault =>
          simp only [iterate, gives]
          exact .of_eq rfl
      | ok b =>
          cases b with
          | false =>
              simp only [iterate, gives]
              exact .of_eq rfl
          | true =>
              rw [iterate_of_true gives, iterate_of_true gives]
              exact (keeps m).andThen (ih (Nat.le_of_succ_le_succ le))

end Machine

mutual

/-- A larger limit changes no statement that finishes. -/
theorem Stmt.exec_keeps (s : Setting σ) {limit : Nat} (le : s.limit ≤ limit) (stmt : Stmt)
    (outer : List Level) (m : Machine σ)
    : Keeps (stmt.exec s outer m) (stmt.exec (s.within limit) outer m) := by
  cases stmt with
  | declare name value | assign name value => exact .of_eq rfl
  | print value => exact .of_eq rfl
  | branch condition whenTrue whenFalse =>
      simp only [exec, Machine.record_within]
      generalize m.record s (.entered (.branch condition whenTrue whenFalse) (m.chain outer)) = m₀
      cases m₀.test outer .branch condition with
      | error fault => exact .of_eq rfl
      | ok b =>
          cases b with
          | true => exact m₀.block_keeps (Stmt.execAll_keeps s le whenTrue)
          | false => exact m₀.block_keeps (Stmt.execAll_keeps s le whenFalse)
  | loop condition body =>
      simp only [exec, Machine.record_within]
      exact Machine.iterate_keeps (Machine.block_keeps (Stmt.execAll_keeps s le body)) le _
termination_by sizeOf stmt

/-- A larger limit changes no statements that finish. -/
theorem Stmt.execAll_keeps (s : Setting σ) {limit : Nat} (le : s.limit ≤ limit) (stmts : List Stmt)
    (outer : List Level) (m : Machine σ)
    : Keeps (Stmt.execAll s stmts outer m) (Stmt.execAll (s.within limit) stmts outer m) := by
  cases stmts with
  | nil => exact .of_eq rfl
  | cons stmt rest =>
      rw [execAll_cons, execAll_cons]
      exact (Stmt.exec_keeps s le stmt outer m).andThen (Stmt.execAll_keeps s le rest outer)
termination_by sizeOf stmts

end

end ScopedWhile
