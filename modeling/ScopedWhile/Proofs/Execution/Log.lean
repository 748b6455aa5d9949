import ScopedWhile.Proofs.Execution.LexicalScope
import ScopedWhile.Proofs.Execution.LogEntries

/-!
The log of a run. Keeping a log changes nothing else. The log has an entry for each step of the run
that shows in it, with the number of blocks around the statement's place in the program, and these
entries are the ones of the statements between the first entry and, if the run completes, the last.
A run that stops has written the beginning of a log that could have been completed.
-/

namespace ScopedWhile

variable {σ : Type}

-----------------------------------------------------------------------------------------
-- The entries of steps
-----------------------------------------------------------------------------------------

namespace Log

/-- The entries of a step. The depth of a statement is the number of blocks around its place. -/
def ofStep : Step → List LogEntry
  | .entered site stmt _ => [entering site.around.length stmt]
  | .declared name _ chain => [declared name chain.level]
  | .merged chain => [merged chain.level]
  | .evaluated _ _ _ | .assigned _ _ _ | .emitted _ => []

def ofSteps (steps : List Step) : List LogEntry :=
  steps.flatMap ofStep

theorem ofSteps_append (first later : List Step)
    : ofSteps (first ++ later) = ofSteps first ++ ofSteps later :=
  List.flatMap_append

end Log

/-- A statement is entered on a chain with a level for each block around its place. -/
def Step.AtDepth : Step → Prop
  | .entered site _ chain => chain.depth = site.around.length
  | _ => True

section

variable {sink : Sink σ} {code : Code} {site : Site} {outer : List Level} {c c' : Config σ}
  {steps : List Step} {outcome : Outcome}

/-- The levels around the current one are those of the blocks around the place. By induction over
the run: a block adds one of each, and nothing else adds any. -/
theorem Runs.atDepth (run : Runs sink code site outer c steps outcome c')
    (depth : outer.length = site.around.length)
    : ∀ step ∈ steps, step.AtDepth := by
  induction run with
  | enter _ ih =>
      rw [List.forall_mem_cons]
      exact ⟨depth, ih depth⟩
  | duplicate _ | undeclared _ | loopCut | nil => nofun
  | declareFault _ _ | assignFault _ _ | printFault _ | branchFault _ | loopFault _ | loopEnd _ =>
      rw [List.forall_mem_singleton]
      trivial
  | declare _ _ _ | assign _ _ _ | print _ _ =>
      simp only [List.forall_mem_cons]
      exact ⟨trivial, trivial, nofun⟩
  | branch _ _ ih | loopStopped _ _ _ ih =>
      rw [List.forall_mem_cons]
      exact ⟨trivial, ih depth⟩
  | loopAgain _ _ _ first again =>
      rw [List.forall_mem_cons, List.forall_mem_append]
      exact ⟨trivial, first depth, again depth⟩
  | block _ _ ih =>
      rw [List.forall_mem_append, List.forall_mem_singleton]
      exact ⟨ih (by simp [Site.inside, depth]), trivial⟩
  | blockStopped _ _ _ ih => exact ih (by simp [Site.inside, depth])
  | stopped _ _ ih => exact ih depth
  | next _ _ first later =>
      rw [List.forall_mem_append]
      exact ⟨first depth, later depth⟩

/-- The events recorded of steps are rendered to the entries of the steps. -/
theorem Log.entries_of_steps (atDepth : ∀ step ∈ steps, step.AtDepth)
    : Run.entries (steps.filterMap Step.event?) = ofSteps steps := by
  induction steps with
  | nil => rfl
  | cons step rest ih =>
      obtain ⟨head, tail⟩ := List.forall_mem_cons.mp atDepth
      have later := ih tail
      cases step with
      | entered place stmt chain =>
          have depth : chain.depth = place.around.length := head
          change Run.entries ([.entered stmt chain] ++ rest.filterMap Step.event?)
            = [entering place.around.length stmt] ++ ofSteps rest
          rw [Run.entries_append, entries_entered, depth, later]
      | declared name v chain | merged chain => exact congrArg (_ :: ·) later
      | evaluated _ _ _ | assigned _ _ _ | emitted _ => exact later

/-- An execution with a log adds the entries of the steps that it takes. -/
theorem Follows.log {s : Setting σ} (recording : s.recording = true) {m : Machine σ}
    {result : Result σ} (follows : Follows s code site outer m steps result)
    (depth : outer.length = site.around.length)
    : result.2.log = m.log ++ Log.ofSteps steps := by
  rw [← Log.entries_of_steps (follows.runs.atDepth depth), Machine.log, follows.history,
    Run.entries_append, Setting.recorded, if_pos recording]
  rfl

end

-----------------------------------------------------------------------------------------
-- The log of any run is the start of one that its code can have
-----------------------------------------------------------------------------------------

namespace Log

/-- The complete logs that code can have at a depth, whichever branches are taken, however often
loops go round and whatever the levels bind. -/
inductive Shape : Nat → Code → List LogEntry → Prop where
  | enter {depth stmt log} (acts : Shape depth (.action stmt) log)
    : Shape depth (.stmt stmt) (entering depth stmt :: log)
  | declare {depth name value} (level : Level)
    : Shape depth (.action (.declare name value)) [declared name level]
  | assign {depth name value} : Shape depth (.action (.assign name value)) []
  | print {depth value} : Shape depth (.action (.print value)) []
  | branch {depth condition whenTrue whenFalse log} (b : Bool)
    (chosen : Shape depth (.block (if b then whenTrue else whenFalse)) log)
    : Shape depth (.action (.branch condition whenTrue whenFalse)) log
  | loopEnd {depth condition body} : Shape depth (.action (.loop condition body)) []
  | loopAgain {depth condition body first later} (round : Shape depth (.block body) first)
    (again : Shape depth (.action (.loop condition body)) later)
    : Shape depth (.action (.loop condition body)) (first ++ later)
  | block {depth body log} (inside : Shape (depth + 1) (.rest body) log) (level : Level)
    : Shape depth (.block body) (log ++ [merged level])
  | nil {depth} : Shape depth (.rest []) []
  | next {depth stmt rest first later} (head : Shape depth (.stmt stmt) first)
    (others : Shape depth (.rest rest) later)
    : Shape depth (.rest (stmt :: rest)) (first ++ later)

mutual

/-- Loops that go round no more and branches taken make up a log of any statement. -/
theorem exists_shape_of_action (depth : Nat) (stmt : Stmt)
    : ∃ log, Shape depth (.action stmt) log := by
  cases stmt with
  | declare name value => exact ⟨_, .declare .empty⟩
  | assign name value => exact ⟨_, .assign⟩
  | print value => exact ⟨_, .print⟩
  | branch condition whenTrue whenFalse =>
      obtain ⟨log, inside⟩ := exists_shape_of_rest (depth + 1) whenTrue
      exact ⟨_, .branch true (.block inside .empty)⟩
  | loop condition body => exact ⟨_, .loopEnd⟩
termination_by sizeOf stmt

/-- Statements have a shape of their log at every depth. -/
theorem exists_shape_of_rest (depth : Nat) (stmts : List Stmt)
    : ∃ log, Shape depth (.rest stmts) log := by
  cases stmts with
  | nil => exact ⟨_, .nil⟩
  | cons stmt rest =>
      obtain ⟨first, acts⟩ := exists_shape_of_action depth stmt
      obtain ⟨later, others⟩ := exists_shape_of_rest depth rest
      exact ⟨_, .next (.enter acts) others⟩
termination_by sizeOf stmts

end

end Log

/-- The entries of a run can be gone on with to a complete log of its code, and are one if the run
completes. By induction over the run: what a stopped run has left open is closed in any way. -/
theorem Runs.shape {sink : Sink σ} {code : Code} {site : Site} {outer : List Level}
    {c c' : Config σ} {steps : List Step} {outcome : Outcome}
    (run : Runs sink code site outer c steps outcome c')
    : ∃ missing,
        Log.Shape site.around.length code (Log.ofSteps steps ++ missing)
        ∧ (outcome = .completed → missing = []) := by
  induction run with
  | enter _ ih =>
      obtain ⟨missing, acts, all⟩ := ih
      exact ⟨missing, .enter acts, all⟩
  | duplicate _ | declareFault _ _ => exact ⟨_, .declare .empty, nofun⟩
  | declare _ _ _ => exact ⟨[], .declare _, fun _ => rfl⟩
  | undeclared _ | assignFault _ _ | assign _ _ _ => exact ⟨[], .assign, fun _ => rfl⟩
  | printFault _ | print _ _ => exact ⟨[], .print, fun _ => rfl⟩
  | @branchFault condition whenTrue whenFalse site _ _ _ _ =>
      obtain ⟨log, acts⟩ :=
        Log.exists_shape_of_action site.around.length (.branch condition whenTrue whenFalse)
      exact ⟨log, acts, nofun⟩
  | branch _ _ ih =>
      obtain ⟨missing, chosen, all⟩ := ih
      exact ⟨missing, .branch _ chosen, all⟩
  | loopFault _ | loopEnd _ | loopCut => exact ⟨[], .loopEnd, fun _ => rfl⟩
  | @loopStopped condition body _ _ _ _ _ _ _ _ stops ih =>
      -- The round could have been finished and have been the last one.
      obtain ⟨missing, round, _⟩ := ih
      refine ⟨missing, ?_, fun completes => absurd completes stops⟩
      have ends : Log.Shape _ (.action (.loop condition body)) _ := .loopAgain round .loopEnd
      rwa [List.append_nil] at ends
  | loopAgain _ _ _ first again =>
      obtain ⟨_, round, all⟩ := first
      obtain ⟨missing, others, allAgain⟩ := again
      obtain rfl := all rfl
      rw [List.append_nil] at round
      refine ⟨missing, ?_, allAgain⟩
      have both := Log.Shape.loopAgain round others
      rwa [← List.append_assoc, ← Log.ofSteps_append] at both
  | @block _ site _ _ _ _ _ _ _ ih =>
      obtain ⟨_, inside, all⟩ := ih
      obtain rfl := all rfl
      rw [List.append_nil, Site.length_around_inside] at inside
      refine ⟨[], ?_, fun _ => rfl⟩
      rw [List.append_nil, Log.ofSteps_append]
      exact .block inside _
  | blockStopped _ stops _ ih =>
      obtain ⟨missing, inside, _⟩ := ih
      rw [Site.length_around_inside] at inside
      refine ⟨missing ++ [Log.merged .empty], ?_, fun completes => absurd completes stops⟩
      rw [← List.append_assoc]
      exact .block inside .empty
  | nil => exact ⟨[], .nil, fun _ => rfl⟩
  | @stopped _ rest site _ _ _ _ _ _ stops ih =>
      obtain ⟨missing, head, _⟩ := ih
      obtain ⟨later, others⟩ := Log.exists_shape_of_rest site.around.length rest
      refine ⟨missing ++ later, ?_, fun completes => absurd completes stops⟩
      rw [← List.append_assoc]
      exact .next head others
  | next _ _ first later =>
      obtain ⟨_, head, all⟩ := first
      obtain ⟨missing, others, allLater⟩ := later
      obtain rfl := all rfl
      rw [List.append_nil] at head
      refine ⟨missing, ?_, allLater⟩
      rw [Log.ofSteps_append, List.append_assoc]
      exact .next head others

/-- An entry of an execution of the program. One for a statement names as its depth the number of
blocks around a place where the program has the statement. -/
inductive Log.Lexical (program : List Stmt) : LogEntry → Prop where
  | entering {site stmt} (occurs : Occurs program site stmt)
    : Lexical program (entering site.around.length stmt)
  | declared (name : String) (level : Level) : Lexical program (declared name level)
  | merged (level : Level) : Lexical program (merged level)

/-- The entries at places in a program come from its statements. -/
theorem Log.Lexical.source {program : List Stmt} {entry : LogEntry}
    (lexical : Log.Lexical program entry)
    : entry.source = .statement := by
  cases lexical <;> rfl

/-- Every statement that shows in the entries of a run stands at its place in the program. -/
theorem Program.Runs.log_lexical {p : Program} {sink : Sink σ} {output : σ} {steps : List Step}
    {outcome : Outcome} {c : Config σ} (run : p.Runs sink output steps outcome c)
    : ∀ entry ∈ Log.ofSteps steps, Log.Lexical p.statements entry := by
  intro entry member
  obtain ⟨step, inSteps, ofStep⟩ := List.mem_flatMap.mp member
  have lexical := ScopedWhile.Runs.lexical run BlockAt.top rfl step inSteps
  cases step with
  | entered site stmt chain =>
      obtain rfl := List.mem_singleton.mp ofStep
      exact .entering lexical.1
  | declared name v chain =>
      obtain rfl := List.mem_singleton.mp ofStep
      exact .declared name _
  | merged chain =>
      obtain rfl := List.mem_singleton.mp ofStep
      exact .merged _
  | evaluated _ _ _ | assigned _ _ _ | emitted _ => cases ofStep

-----------------------------------------------------------------------------------------
-- Runs with and without a log
-----------------------------------------------------------------------------------------

/-- The log of a run that completes, from the entries of its statements. -/
def Log.ofRun (p : Program) (entries : List LogEntry) (level : Level) : List LogEntry :=
  starting p.statements.length :: (entries ++ [finalState level])

/-- The first entry of a log is not taken for its last: their texts begin with other letters. -/
theorem Log.starting_ne_finalState (count : Nat) (level : Level)
    : starting count ≠ finalState level := by
  intro same
  have heads := congrArg (fun entry => entry.message.toList.head?) same
  simp [starting, finalState] at heads

/-- With and without a log a run ends and writes alike, since both agree with the flat interpreter,
which keeps none. -/
theorem run_recording (target : RunTarget) (output : Output) (limit : Nat)
    : (run target output true limit).ending = (run target output false limit).ending
      ∧ (run target output true limit).transcript
        = (run target output false limit).transcript := by
  cases resolves : target.resolve with
  | error cause => simp [run, resolves]
  | ok p =>
      cases channels : output.resolve with
      | error cause => simp [run, resolves, channels]
      | ok channel =>
          have flat (recording : Bool) := Flat.run_refines recording limit resolves channels
            (Flat.execAll_refines { sink := channel.sink, recording, limit } p.statements []
              { level := .empty, output := {} })
          exact ⟨(flat true).1.trans (flat false).1.symm, (flat true).2.trans (flat false).2.symm⟩

/-- What a run with a log has logged: the entries of its statements, which are those of its steps,
after the first entry, and the last entry if it completes. -/
structure Logged (p : Program) (channel : Channel) (entries : List LogEntry) (report : RunReport)
    : Prop where
  /-- The entries are those of the steps that lead to the reported end. -/
  steps : ∃ steps outcome c,
    p.Runs channel.sink {} steps outcome c
    ∧ report.ending = outcome.ending c.level
    ∧ entries = Log.ofSteps steps
  completed : ∀ level, report.ending = .ok level → report.log = Log.ofRun p entries level
  stopped : ∀ cause,
    report.ending = .error cause → report.log = Log.starting p.statements.length :: entries

/-- A run with a log is logged with the entries of its statements. -/
theorem run_logged {target : RunTarget} {output : Output} {p : Program} {channel : Channel}
    (resolves : target.resolve = .ok p) (channels : output.resolve = .ok channel) (limit : Nat)
    : Logged p channel
        (Log.ofStmts channel.sink limit [] 0 p.statements { level := .empty, output := {} })
        (run target output true limit) := by
  have written := p.log_of_exec (s := { sink := channel.sink, recording := true, limit }) rfl {}
  obtain ⟨steps, follows⟩ := p.exec_follows { sink := channel.sink, recording := true, limit } {}
  have added := follows.log rfl rfl
  have runs := follows.runs
  rcases result : p.exec { sink := channel.sink, recording := true, limit } {} with ⟨outcome, m⟩
  have ending := (run_of_exec true limit resolves channels result).1
  rw [result] at written added runs
  refine ⟨⟨steps, outcome, m.config, runs, ending, written.symm.trans added⟩, ?_, ?_⟩
  · intro level ends
    rw [ending] at ends
    cases outcome <;> cases ends
    simp only [run, resolves, channels, result, if_true]
    exact congrArg (Log.ofRun p · m.level) written
  · intro cause ends
    rw [ending] at ends
    cases outcome <;> cases ends
    all_goals
      simp only [run, resolves, channels, result, if_true]
      exact congrArg (Log.starting _ :: ·) written

namespace Logged

variable {p : Program} {channel : Channel} {entries : List LogEntry} {report : RunReport}
  (logged : Logged p channel entries report)

include logged

/-- The entries can be gone on with to a complete log of the program, and are one if the run
completes. -/
theorem shape
    : ∃ missing,
        Log.Shape 0 (.rest p.statements) (entries ++ missing)
        ∧ ((∃ level, report.ending = .ok level) → missing = []) := by
  obtain ⟨steps, outcome, c, runs, ending, rfl⟩ := logged.steps
  obtain ⟨missing, shape, all⟩ := Runs.shape runs
  refine ⟨missing, shape, ?_⟩
  rintro ⟨level, ends⟩
  rw [ending] at ends
  cases outcome <;> cases ends
  exact all rfl

/-- All entries are of statements at their places in the program. -/
theorem lexical
    : ∀ entry ∈ entries, Log.Lexical p.statements entry := by
  obtain ⟨steps, outcome, c, runs, _, rfl⟩ := logged.steps
  exact runs.log_lexical

/-- A run that stops has no entry for a final level. -/
theorem finalState_not_mem {cause : RunError} (stops : report.ending = .error cause)
    (level : Level)
    : Log.finalState level ∉ report.log := by
  rw [logged.stopped cause stops, List.mem_cons]
  rintro (same | member)
  · exact Log.starting_ne_finalState _ level same.symm
  · cases (logged.lexical _ member).source

/-- The entries that statements make are all that a log has of them. -/
theorem mem_entries {entry : LogEntry} (member : entry ∈ report.log)
    (source : entry.source = .statement)
    : entry ∈ entries := by
  cases ends : report.ending with
  | ok level =>
      rw [logged.completed level ends, Log.ofRun, List.mem_cons, List.mem_append,
        List.mem_singleton] at member
      rcases member with rfl | member | rfl
      · cases source
      · exact member
      · cases source
  | error cause =>
      rw [logged.stopped cause ends, List.mem_cons] at member
      rcases member with rfl | member
      · cases source
      · exact member

end Logged

/-- Keeping a log changes neither how a program ends nor what it writes, whatever the sink. However
a run ends, it has logged, after an entry for its start, exactly the entries of its statements along
the branches and rounds that it took, which are those of its own steps. If it completes, an entry
for the final level follows, and the entries are a complete log of the statements. If it stops,
there is no such entry, and the log is a proper part of one that goes on to be complete. All entries
in between are of statements at their places in the program, each with the number of blocks around
it. -/
theorem Program.logging_is_transparent_and_nested (p : Program)
    : (∀ {σ : Type} (sink : Sink σ) (limit : Nat) (output : σ),
        let quiet := p.exec { sink, recording := false, limit } output
        let logging := p.exec { sink, recording := true, limit } output
        logging.1 = quiet.1
        ∧ logging.2.output = quiet.2.output
        ∧ (quiet.1 = .completed → logging.2.level = quiet.2.level))
      ∧ ∀ (target : RunTarget) (output : Output) (limit : Nat),
          target.resolve = .ok p
          → let quiet := run target output false limit
            let logging := run target output true limit
            logging.ending = quiet.ending
            ∧ logging.transcript = quiet.transcript
            ∧ ∀ channel,
                output.resolve = .ok channel
                → let entries := Log.ofStmts channel.sink limit [] 0 p.statements
                    { level := .empty, output := {} }
                  (∃ steps outcome c,
                    p.Runs channel.sink {} steps outcome c
                    ∧ logging.ending = outcome.ending c.level
                    ∧ entries = Log.ofSteps steps)
                  ∧ (∀ level,
                      logging.ending = .ok level
                      → logging.log = Log.ofRun p entries level
                        ∧ Log.Shape 0 (.rest p.statements) entries)
                  ∧ (∀ cause,
                      logging.ending = .error cause
                      → logging.log = Log.starting p.statements.length :: entries
                        ∧ (∀ level, Log.finalState level ∉ logging.log)
                        ∧ ∃ missing,
                            Log.Shape 0 (.rest p.statements) (entries ++ missing)
                            ∧ ∀ level,
                                logging.log <+: Log.ofRun p (entries ++ missing) level
                                ∧ logging.log ≠ Log.ofRun p (entries ++ missing) level)
                  ∧ ∀ entry ∈ logging.log,
                      entry.source = .statement → Log.Lexical p.statements entry := by
  refine ⟨?_, ?_⟩
  · intro σ sink limit output
    have flat (recording : Bool) := Flat.execAll_refines { sink, recording, limit } p.statements []
      { level := .empty, output }
    refine ⟨(flat true).outcome.trans (flat false).outcome.symm,
      (flat true).output.trans (flat false).output.symm, ?_⟩
    intro completes
    have both := (flat true).outcome.trans ((flat false).outcome.symm.trans completes)
    exact ((flat true).level both).trans ((flat false).level completes).symm
  · intro target output limit resolves quiet logging
    obtain ⟨ending, transcript⟩ := run_recording target output limit
    refine ⟨ending, transcript, ?_⟩
    intro channel channels entries
    have logged : Logged p channel entries logging := run_logged resolves channels limit
    obtain ⟨missing, shape, all⟩ := logged.shape
    refine ⟨logged.steps, ?_, ?_, ?_⟩
    · intro level ends
      obtain rfl := all ⟨level, ends⟩
      exact ⟨logged.completed level ends, List.append_nil entries ▸ shape⟩
    · intro cause ends
      have log := logged.stopped cause ends
      refine ⟨log, logged.finalState_not_mem ends, missing, shape, ?_⟩
      intro level
      rw [log]
      exact ⟨⟨missing ++ [Log.finalState level], by simp [Log.ofRun]⟩, by simp [Log.ofRun]⟩
    · intro entry member source
      exact logged.lexical entry (logged.mem_entries member source)

-- A branch without statements ends as any other block does.
example : (run (.program (.ok { statements := [.branch (.boolean true) [] []] })) .collector true
      0).log.map LogEntry.message
    = [ "running 1 top-level statements",
        "exec [depth 0] if (true) \x7b",
        "merged block scope: \x7b\x7d",
        "final state: \x7b\x7d" ] := by
  decide

/-- A program that fails inside of a block for a name that nothing binds, where the other branch
would not. -/
def Program.unbound : Program where
  statements :=
    [ .declare "x" (.boolean true),
      .branch (.var "x") [.print (.var "y"), .print (.var "x")] [.assign "x" (.boolean false)] ]

/-- The texts of the log of a program that completes, and of one that fails. -/
theorem Program.logging_is_transparent_and_nested_unbound
    : (∃ level,
        (run (.program (.ok nested)) .collector false 2).ending = .ok level
        ∧ (run (.program (.ok nested)) .collector true 2).log
          = Log.ofRun nested
              (Log.ofStmts Channel.collector.sink 2 [] 0 nested.statements
                { level := .empty, output := {} })
              level
        ∧ (run (.program (.ok nested)) .collector true 2).log.map LogEntry.message
          = [ "running 2 top-level statements",
              "exec [depth 0] let x = true;",
              "declared x, bindings: \x7b'x': True\x7d",
              "exec [depth 0] while (x) \x7b",
              "exec [depth 1] let y = false;",
              "declared y, bindings: \x7b'x': True, 'y': False\x7d",
              "exec [depth 1] x = y;",
              "merged block scope: \x7b'x': False\x7d",
              "final state: \x7b'x': False\x7d" ])
      ∧ ∃ cause missing,
          let entries := Log.ofStmts Channel.collector.sink 2 [] 0 unbound.statements
            { level := .empty, output := {} }
          (run (.program (.ok unbound)) .collector false 2).ending = .error cause
          ∧ (run (.program (.ok unbound)) .collector true 2).log = Log.starting 2 :: entries
          ∧ (Log.starting 2 :: entries).map LogEntry.message
            = [ "running 2 top-level statements",
                "exec [depth 0] let x = true;",
                "declared x, bindings: \x7b'x': True\x7d",
                "exec [depth 0] if (x) \x7b",
                "exec [depth 1] print(y);" ]
          ∧ Log.Shape 0 (.rest unbound.statements) (entries ++ missing)
          ∧ (run (.program (.ok unbound)) .collector true 2).log
            <+: Log.ofRun unbound (entries ++ missing) .empty := by
  obtain ⟨level, completes⟩
      : ∃ level, (run (.program (.ok nested)) .collector true 2).ending = .ok level := ⟨_, rfl⟩
  obtain ⟨cause, fails⟩
      : ∃ cause, (run (.program (.ok unbound)) .collector true 2).ending = .error cause := ⟨_, rfl⟩
  obtain ⟨ending, _, logs⟩ := (logging_is_transparent_and_nested nested).2
    (.program (.ok nested)) .collector 2 rfl
  obtain ⟨failing, _, stops⟩ := (logging_is_transparent_and_nested unbound).2
    (.program (.ok unbound)) .collector 2 rfl
  obtain ⟨_, completed, _⟩ := logs .collector rfl
  obtain ⟨_, _, stopped, _⟩ := stops .collector rfl
  obtain ⟨log, _, missing, shape, within⟩ := stopped cause fails
  exact ⟨⟨level, ending.symm.trans completes, (completed level completes).1, by decide +kernel⟩,
    cause, missing, failing.symm.trans fails, log, by decide +kernel, shape, (within .empty).1⟩

end ScopedWhile
