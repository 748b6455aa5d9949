import ScopedWhile.Proofs.Execution.FlatEnvironment

/-!
The entries that statements write to the log. They are defined along the text of the statements,
with the flat interpreter to tell which branches are taken, how often loops go round and where an
execution stops, and an execution with a log is shown to write exactly these entries, however it
ends.
-/

namespace ScopedWhile

variable {σ : Type}

namespace Log

/-- The characters that end a line. -/
def lineBreaks : List Char :=
  ['\n', '\r', '\x0b', '\x0c', '\x1c', '\x1d', '\x1e', '\x85', '\u2028', '\u2029']

/-- A text up to its first line break. -/
def firstLine (text : String) : String :=
  String.ofList (text.toList.take (text.toList.findIdx fun c => c ∈ lineBreaks))

/-- A run of so many statements at the top begins. -/
def starting (count : Nat) : LogEntry where
  source := .run
  message := "running " ++ toString count ++ " top-level statements"

/-- A run has completed with the given level. -/
def finalState (level : Level) : LogEntry where
  source := .run
  message := "final state: " ++ Run.levelText level

/-- A statement is executed inside of so many blocks. -/
def entering (depth : Nat) (stmt : Stmt) : LogEntry where
  source := .statement
  message := "exec [depth " ++ toString depth ++ "] " ++ firstLine stmt.source

/-- A name is declared, which leaves the given level. -/
def declared (name : String) (level : Level) : LogEntry where
  source := .statement
  message := "declared " ++ name ++ ", bindings: " ++ Run.levelText level

/-- A block has ended, which leaves the given level around it. -/
def merged (level : Level) : LogEntry where
  source := .statement
  message := "merged block scope: " ++ Run.levelText level

/-- The entries that follow something, which are made only if it completes. -/
def whenCompleted (result : Flat.Result σ) (entries : Config σ → List LogEntry) : List LogEntry :=
  match result with
  | (.completed, c) => entries c
  | _ => []

/-- The entries of a block: those of its statements and, if it completes, that of its end. -/
def block (inside : List LogEntry) (result : Flat.Result σ) : List LogEntry :=
  inside ++ whenCompleted result fun after => [merged after.level]

/-- The entries of the rounds of a loop. -/
def rounds (test : Config σ → Except Fault Bool) (body : Config σ → Flat.Result σ)
    (inside : Config σ → List LogEntry) : Nat → Config σ → List LogEntry
  | 0, _ => []
  | left + 1, c => match test c with
    | .ok true =>
        block (inside c) (body c)
          ++ whenCompleted (body c) fun after => rounds test body inside left after
    | _ => []

mutual

/-- The entries of a statement, up to where it stops. Where it leads is told by the flat
interpreter, so that the depth is nothing but the nesting of blocks in the text. -/
def ofStmt (sink : Sink σ) (limit : Nat) (ancestors : List Level) (depth : Nat)
    : Stmt → Config σ → List LogEntry
  | .declare name value, c =>
      entering depth (.declare name value)
        :: whenCompleted (Flat.exec sink limit ancestors (.declare name value) c) fun after =>
          [declared name after.level]
  | .assign name value, _ => [entering depth (.assign name value)]
  | .print value, _ => [entering depth (.print value)]
  | .branch condition whenTrue whenFalse, c =>
      let inside := match (c.chain ancestors).test .branch condition with
        | .error _ => []
        | .ok true =>
            block (ofStmts sink limit ancestors (depth + 1) whenTrue c)
              (Flat.leave c.level (Flat.execAll sink limit ancestors whenTrue c))
        | .ok false =>
            block (ofStmts sink limit ancestors (depth + 1) whenFalse c)
              (Flat.leave c.level (Flat.execAll sink limit ancestors whenFalse c))
      entering depth (.branch condition whenTrue whenFalse) :: inside
  | .loop condition body, c =>
      entering depth (.loop condition body)
        :: rounds (fun c => (c.chain ancestors).test .loop condition)
          (fun c => Flat.leave c.level (Flat.execAll sink limit ancestors body c))
          (fun c => ofStmts sink limit ancestors (depth + 1) body c) limit c

/-- The entries of statements one after another, up to the first that does not complete. -/
def ofStmts (sink : Sink σ) (limit : Nat) (ancestors : List Level) (depth : Nat)
    : List Stmt → Config σ → List LogEntry
  | [], _ => []
  | stmt :: rest, c =>
      ofStmt sink limit ancestors depth stmt c
        ++ whenCompleted (Flat.exec sink limit ancestors stmt c) fun after =>
          ofStmts sink limit ancestors depth rest after

end

-----------------------------------------------------------------------------------------
-- Texts
-----------------------------------------------------------------------------------------

/-- Cutting at the first line break is keeping what comes before any. -/
theorem firstLine_eq (text : String)
    : Text.firstLine text = firstLine text := by
  rw [Text.firstLine, firstLine, List.takeWhile_eq_take_findIdx_not]
  simp only [Bool.not_not]
  rfl

/-- The entry for an entered statement has the depth of the chain that it is entered on. -/
theorem entries_entered (stmt : Stmt) (chain : Chain)
    : Run.entries [.entered stmt chain] = [entering chain.depth stmt] := by
  rw [entering, ← firstLine_eq]
  rfl

-----------------------------------------------------------------------------------------
-- What follows a result of either interpreter
-----------------------------------------------------------------------------------------

variable {flat : Flat.Result σ} {m : Machine σ} {outcome : Outcome}

/-- Where the execution completes, the entries go on from where it leads. -/
theorem whenCompleted_of_completed (agrees : Flat.Agrees (.completed, m) flat)
    (entries : Config σ → List LogEntry)
    : whenCompleted flat entries = entries m.config := by
  rw [agrees.completed]
  rfl

/-- Where the execution stops, there are no more entries. -/
theorem whenCompleted_of_stopped (agrees : Flat.Agrees (outcome, m) flat)
    (stops : outcome ≠ .completed) (entries : Config σ → List LogEntry)
    : whenCompleted flat entries = [] := by
  obtain ⟨flatOutcome, c⟩ := flat
  obtain rfl : outcome = flatOutcome := agrees.outcome
  cases outcome with
  | completed => exact absurd rfl stops
  | halted cause => rfl
  | unfinished => rfl

end Log

-----------------------------------------------------------------------------------------
-- An execution writes the entries of its statements
-----------------------------------------------------------------------------------------

theorem Run.entries_append (first later : List Event)
    : Run.entries (first ++ later) = Run.entries first ++ Run.entries later :=
  List.filterMap_append

/-- The log of what has happened so far. -/
def Machine.log (m : Machine σ) : List LogEntry :=
  Run.entries m.history.toList

section

variable {s : Setting σ} (recording : s.recording = true)
  {ancestors hidden outer : List Level} {m : Machine σ}

include recording

/-- A recorded event is rendered after everything before it. -/
theorem Machine.log_record (m : Machine σ) (event : Event)
    : (m.record s event).log = m.log ++ Run.entries [event] := by
  simp only [log, record, recording, if_true, Array.toList_push]
  exact Run.entries_append _ _

/-- A declaration has its entry only if the name was free and the value could be evaluated. -/
theorem Machine.log_of_declare (covers : m.level.Covers hidden) (name : String) (value : Expr)
    : (m.declare s (hidden ++ ancestors) name value).2.log
      = m.log
        ++ Log.whenCompleted (Flat.exec s.sink s.limit ancestors (.declare name value) m.config)
          fun after => [Log.declared name after.level] := by
  have agrees : Flat.Agrees (m.declare s (hidden ++ ancestors) name value)
      (Flat.exec s.sink s.limit ancestors (.declare name value) m.config) :=
    Flat.declare_agrees covers name value
  rcases result : m.declare s (hidden ++ ancestors) name value with ⟨outcome, m'⟩
  rw [result] at agrees
  simp only [declare] at result
  split at result
  next bound =>
    cases result
    rw [Log.whenCompleted_of_stopped agrees (by simp), List.append_nil]
  next free =>
    split at result
    next fault _ =>
      cases result
      rw [Log.whenCompleted_of_stopped agrees (by simp), List.append_nil]
    next v _ =>
      cases result
      rw [Log.whenCompleted_of_completed agrees, log_record recording, config_record]
      rfl

/-- An assignment writes no entry of its own. -/
theorem Machine.log_of_assign (name : String) (value : Expr)
    : (m.assign s outer name value).2.log = m.log := by
  simp only [assign]
  split
  next bound =>
    split
    next => rfl
    next =>
      rw [log_record recording]
      exact List.append_nil _
  next free => rfl

omit recording in
/-- A print writes no entry of its own. -/
theorem Machine.log_of_print (value : Expr)
    : (m.print s outer value).2.log = m.log := by
  simp only [print]
  split
  next => rfl
  next v _ => rcases s.sink.emit v.toDatum m.output with ⟨output, _ | cause⟩ <;> rfl

variable {body : List Stmt}
  (logs : ∀ {hidden : List Level} {m : Machine σ},
    m.level.Covers hidden
    → (Stmt.execAll s body (hidden ++ ancestors) m).2.log
      = m.log
        ++ Log.ofStmts s.sink s.limit ancestors (hidden ++ ancestors).length body m.config)

include logs

/-- A block writes the entries of its statements and, once it is merged back, the one of its end. -/
theorem Machine.log_of_block (covers : m.level.Covers hidden)
    : (m.block s (hidden ++ ancestors) (Stmt.execAll s body)).2.log
      = m.log
        ++ Log.block
          (Log.ofStmts s.sink s.limit ancestors ((hidden ++ ancestors).length + 1) body m.config)
          (Flat.leave m.level (Flat.execAll s.sink s.limit ancestors body m.config)) := by
  have agrees := Flat.block_agrees (Flat.execAll_agrees s ancestors body covers.child)
  have inside := logs covers.child
  rcases result : Stmt.execAll s body (m.level :: (hidden ++ ancestors)) m with ⟨outcome, inner⟩
  rw [List.cons_append, result] at inside
  by_cases completes : outcome = .completed
  · subst completes
    rw [block_of_completed result] at agrees ⊢
    rw [Log.block, Log.whenCompleted_of_completed agrees, log_record recording, config_record,
      ← List.append_assoc]
    exact congrArg (· ++ _) inside
  · rw [block_of_stopped result completes] at agrees ⊢
    rw [Log.block, Log.whenCompleted_of_stopped agrees completes, List.append_nil]
    exact inside

/-- By induction on the rounds that are left. A round that completes leaves the names of the level
as they were, so that it goes on covering the same levels. -/
theorem Machine.log_of_iterate (covers : m.level.Covers hidden) (condition : Expr) (rounds : Nat)
    : (iterate (test (hidden ++ ancestors) .loop condition)
        (block s (hidden ++ ancestors) (Stmt.execAll s body)) rounds m).2.log
      = m.log
        ++ Log.rounds (fun c => (c.chain ancestors).test .loop condition)
          (fun c => Flat.leave c.level (Flat.execAll s.sink s.limit ancestors body c))
          (fun c => Log.ofStmts s.sink s.limit ancestors ((hidden ++ ancestors).length + 1) body c)
          rounds m.config := by
  induction rounds generalizing m with
  | zero => exact (List.append_nil _).symm
  | succ rounds ih =>
      have same : m.test (hidden ++ ancestors) .loop condition = _ :=
        Flat.test_covered covers .loop condition
      cases gives : (m.config.chain ancestors).test .loop condition with
      | error fault =>
          simp only [iterate, Log.rounds, same, gives, List.append_nil]
          rfl
      | ok b =>
          cases b with
          | false => simp only [iterate, Log.rounds, same, gives, List.append_nil]
          | true =>
              have agrees := Flat.block_agrees
                (Flat.execAll_agrees s ancestors body covers.child)
              have round := log_of_block recording logs covers
              rcases result : m.block s (hidden ++ ancestors) (Stmt.execAll s body)
                with ⟨outcome, m₁⟩
              rw [result] at agrees round
              have level : m.config.level = m.level := rfl
              by_cases completes : outcome = .completed
              · subst completes
                have names := names_of_block result
                have again := ih (covers.mono fun _ bound => names ▸ bound)
                simp only [iterate, Log.rounds, same, gives, result, again, round, level,
                  Log.whenCompleted_of_completed agrees, List.append_assoc]
              · rw [iterate_of_stopped (same.trans gives) result completes]
                simp only [Log.rounds, gives, round, level,
                  Log.whenCompleted_of_stopped agrees completes, List.append_nil]

end

mutual

/-- Executed at any depth, a statement writes its entries. By induction over the statement, with
the levels of the blocks around it hidden from the flat interpreter. -/
theorem Stmt.log_of_exec {s : Setting σ} (recording : s.recording = true) (ancestors : List Level)
    (stmt : Stmt) {hidden : List Level} {m : Machine σ} (covers : m.level.Covers hidden)
    : (stmt.exec s (hidden ++ ancestors) m).2.log
      = m.log
        ++ Log.ofStmt s.sink s.limit ancestors (hidden ++ ancestors).length stmt m.config := by
  -- The entry of the statement itself comes first.
  generalize entered : m.record s (.entered stmt (m.chain (hidden ++ ancestors))) = m₀
  have config : m.config = m₀.config := by rw [← entered, Machine.config_record]
  have level : m.level = m₀.level := congrArg Config.level config
  have entering : m₀.log = m.log ++ [Log.entering (hidden ++ ancestors).length stmt] := by
    rw [← entered, Machine.log_record recording, Log.entries_entered]
    rfl
  rw [level] at covers
  rw [config]
  cases stmt with
  | declare name value =>
      simp only [exec, entered, Log.ofStmt]
      rw [Machine.log_of_declare recording covers, entering, List.append_assoc]
      rfl
  | assign name value =>
      simp only [exec, entered, Log.ofStmt]
      rw [Machine.log_of_assign recording, entering]
  | print value =>
      simp only [exec, entered, Log.ofStmt]
      rw [Machine.log_of_print, entering]
  | branch condition whenTrue whenFalse =>
      simp only [exec, entered, Log.ofStmt, Flat.test_covered covers]
      cases (m₀.config.chain ancestors).test .branch condition with
      | error fault => exact entering
      | ok b =>
          cases b with
          | true =>
              have block := Machine.log_of_block recording
                (Stmt.log_of_execAll recording ancestors whenTrue) covers
              rw [block, entering, List.append_assoc]
              rfl
          | false =>
              have block := Machine.log_of_block recording
                (Stmt.log_of_execAll recording ancestors whenFalse) covers
              rw [block, entering, List.append_assoc]
              rfl
  | loop condition body =>
      simp only [exec, entered, Log.ofStmt]
      have rounds := Machine.log_of_iterate recording
        (Stmt.log_of_execAll recording ancestors body) covers condition s.limit
      rw [rounds, entering, List.append_assoc]
      rfl
termination_by sizeOf stmt

/-- Statements write their entries one after another, up to the first that stops. -/
theorem Stmt.log_of_execAll {s : Setting σ} (recording : s.recording = true)
    (ancestors : List Level) (stmts : List Stmt) {hidden : List Level} {m : Machine σ}
    (covers : m.level.Covers hidden)
    : (Stmt.execAll s stmts (hidden ++ ancestors) m).2.log
      = m.log
        ++ Log.ofStmts s.sink s.limit ancestors (hidden ++ ancestors).length stmts m.config := by
  cases stmts with
  | nil => simp only [execAll, Log.ofStmts, List.append_nil]
  | cons stmt rest =>
      have agrees := Flat.exec_agrees s ancestors stmt covers
      have first := Stmt.log_of_exec recording ancestors stmt covers
      rcases result : stmt.exec s (hidden ++ ancestors) m with ⟨outcome, m₁⟩
      rw [result] at agrees first
      by_cases completes : outcome = .completed
      · subst completes
        have grown := Stmt.names_grow_of_exec result
        have others := Stmt.log_of_execAll recording ancestors rest (covers.mono grown.subset)
        simp only [execAll, Log.ofStmts, result, others, first,
          Log.whenCompleted_of_completed agrees, List.append_assoc]
      · rw [Stmt.execAll_of_stopped result completes]
        simp only [Log.ofStmts, first, Log.whenCompleted_of_stopped agrees completes,
          List.append_nil]
termination_by sizeOf stmts

end

/-- Executed from the empty root, a program writes the entries of its statements. -/
theorem Program.log_of_exec (p : Program) {s : Setting σ} (recording : s.recording = true)
    (output : σ)
    : (p.exec s output).2.log
      = Log.ofStmts s.sink s.limit [] 0 p.statements { level := .empty, output } :=
  Stmt.log_of_execAll recording [] p.statements (m := { level := .empty, output })
    (Level.Covers.nil Level.empty)

end ScopedWhile
