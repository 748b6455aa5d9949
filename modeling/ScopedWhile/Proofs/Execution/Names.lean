import ScopedWhile.Proofs.Execution.Adequacy

/-!
The names of the current level: a part of a program that completes adds those it declares, and a
statement that does not complete adds none.
-/

namespace ScopedWhile

variable {σ : Type}

/-- The names that code adds to the level it runs on. -/
def Code.declaredNames : Code → List String
  | .stmt statement | .action statement => statement.declared?.toList
  | .block _ => []
  | .rest stmts => Stmt.declaredNames stmts

/-- What completes has added the names that it declares in its own block, in order, and no others.
By induction over the run: a block merges no names back. -/
theorem Runs.names_of_completed {sink : Sink σ} {code : Code} {site : Site} {outer : List Level}
    {c c' : Config σ} {steps : List Step} {outcome : Outcome}
    (run : Runs sink code site outer c steps outcome c') (completes : outcome = .completed)
    : c'.level.names = c.level.names ++ code.declaredNames := by
  induction run with
  | enter _ ih => exact ih completes
  | declare fresh _ next =>
      rw [next, Level.names_set_of_notMem fresh]
      rfl
  | assign bound _ next =>
      rw [next, Level.names_set_of_mem bound]
      exact (List.append_nil _).symm
  | print _ _ => exact (List.append_nil _).symm
  | branch _ _ ih => exact ih completes
  | loopEnd _ => exact (List.append_nil _).symm
  | loopAgain _ _ _ round again =>
      rw [again completes, round rfl]
      simp [Code.declaredNames, Stmt.declared?]
  | block _ next =>
      rw [next, Level.names_mergeBack]
      exact (List.append_nil _).symm
  | nil => exact (List.append_nil _).symm
  | next _ _ first later =>
      rw [later completes, first rfl, List.append_assoc]
      simp only [Code.declaredNames, Stmt.declaredNames_cons]
  | loopStopped _ _ stops | blockStopped _ stops | stopped _ stops => exact absurd completes stops
  | _ => cases completes

section

variable {sink : Sink σ} {site : Site} {outer : List Level} {c c' : Config σ} {steps : List Step}

/-- Code that completes keeps the names of the level it runs on in their places. -/
theorem Runs.names_grow {code : Code} (run : Runs sink code site outer c steps .completed c')
    : c.level.names <+: c'.level.names :=
  ⟨_, (run.names_of_completed rfl).symm⟩

/-- A block that completes has changed no name of the level around it. -/
theorem Runs.names_of_block {body : List Stmt}
    (run : Runs sink (.block body) site outer c steps .completed c')
    : c'.level.names = c.level.names :=
  (run.names_of_completed rfl).trans (List.append_nil _)

/-- A statement that does not complete adds no name: what stops it stands before its own write or
inside a block. -/
theorem Runs.names_of_stopped {code : Code} {outcome : Outcome}
    (run : Runs sink code site outer c steps outcome c') (stops : outcome ≠ .completed)
    (single : ∀ stmts, code ≠ .rest stmts)
    : c'.level.names = c.level.names := by
  induction run with
  | enter _ ih => exact ih stops (by simp)
  | branch _ _ ih => exact ih stops (by simp)
  | loopStopped _ _ _ ih => exact ih stops (by simp)
  | loopAgain _ round _ _ again => exact (again stops single).trans round.names_of_block
  | blockStopped _ _ next => rw [next]
  | declare | assign | loopEnd | block => exact absurd rfl stops
  | nil | stopped | next => exact absurd rfl (single _)
  | _ => rfl

end

/-- A block that completes adds no names to the level around it. -/
theorem Machine.names_of_block {s : Setting σ} {outer : List Level} {body : List Stmt}
    {m m' : Machine σ} (result : m.block s outer (Stmt.execAll s body) = (.completed, m'))
    : m'.level.names = m.level.names := by
  obtain ⟨steps, runs, _⟩ := block_follows (Stmt.execAll_follows s body) .top m
  rw [result] at runs
  exact runs.names_of_block

/-- A statement that completes removes no names. -/
theorem Stmt.names_grow_of_exec {s : Setting σ} {stmt : Stmt} {outer : List Level}
    {m m' : Machine σ} (result : stmt.exec s outer m = (.completed, m'))
    : m.level.names <+: m'.level.names := by
  obtain ⟨steps, runs, _⟩ := stmt.exec_follows s .top outer m
  rw [result] at runs
  exact runs.names_grow

/-- Statements that complete remove no names. -/
theorem Stmt.names_grow_of_execAll {s : Setting σ} {stmts : List Stmt} {outer : List Level}
    {m m' : Machine σ} (result : Stmt.execAll s stmts outer m = (.completed, m'))
    : m.level.names <+: m'.level.names := by
  obtain ⟨steps, runs, _⟩ := Stmt.execAll_follows s stmts .top outer m
  rw [result] at runs
  exact runs.names_grow

-----------------------------------------------------------------------------------------
-- Nodes
-----------------------------------------------------------------------------------------

namespace Node

def declared? : Node → Option String
  | .stmt statement => statement.declared?
  | .expr _ => none

/-- The names that the statements standing directly in a list declare. -/
def declaredNames (nodes : List Node) : List String :=
  nodes.filterMap declared?

theorem declaredNames_cons (node : Node) (rest : List Node)
    : declaredNames (node :: rest) = node.declared?.toList ++ declaredNames rest := by
  cases declares : node.declared? <;> simp [declaredNames, declares]

/-- A node that completes adds the name that it declares. -/
theorem names_of_completed {s : Setting σ} {node : Node} {outer : List Level} {m m' : Machine σ}
    (result : node.exec s outer m = (.completed, m'))
    : m'.level.names = m.level.names ++ node.declared?.toList := by
  cases node with
  | expr e => cases result
  | stmt statement =>
      obtain ⟨steps, runs, _⟩ := statement.exec_follows s .top outer m
      rw [exec] at result
      rw [result] at runs
      exact runs.names_of_completed rfl

/-- A node that stops adds no names. -/
theorem names_of_stopped {s : Setting σ} {node : Node} {outer : List Level} {m m' : Machine σ}
    {outcome : Outcome} (result : node.exec s outer m = (outcome, m'))
    (stops : outcome ≠ .completed)
    : m'.level.names = m.level.names := by
  cases node with
  | expr e =>
      cases result
      rfl
  | stmt statement =>
      obtain ⟨steps, runs, _⟩ := statement.exec_follows s .top outer m
      rw [exec] at result
      rw [result] at runs
      exact runs.names_of_stopped stops (by simp)

/-- The nodes that complete stand before the first that does not, and the level takes on the names
that these declare. -/
theorem names_of_execAll (s : Setting σ) (nodes : List Node) (outer : List Level) (m : Machine σ)
    : ∃ ran rest,
        nodes = ran ++ rest
        ∧ ((Node.execAll s nodes outer m).1 = .completed ↔ rest = [])
        ∧ (Node.execAll s nodes outer m).2.level.names = m.level.names ++ declaredNames ran := by
  induction nodes generalizing m with
  | nil => exact ⟨[], [], rfl, by simp [execAll], (List.append_nil _).symm⟩
  | cons node nodes ih =>
      rcases result : node.exec s outer m with ⟨outcome, m₁⟩
      by_cases completes : outcome = .completed
      · subst completes
        obtain ⟨ran, rest, rfl, ended, names⟩ := ih m₁
        refine ⟨node :: ran, rest, rfl, ?_, ?_⟩
        · simp only [execAll, result, ended]
        · simp only [execAll, result, names, names_of_completed result, declaredNames_cons,
            List.append_assoc]
      · have stopped : Node.execAll s (node :: nodes) outer m = (outcome, m₁) := by
          cases outcome with
          | completed => exact absurd rfl completes
          | halted cause => simp only [execAll, result]
          | unfinished => simp only [execAll, result]
        refine ⟨[], node :: nodes, rfl, ?_, ?_⟩
        · simp [stopped, completes]
        · rw [stopped, names_of_stopped result completes]
          exact (List.append_nil _).symm

end Node

end ScopedWhile
