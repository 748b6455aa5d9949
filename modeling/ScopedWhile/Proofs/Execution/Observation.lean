import ScopedWhile.Proofs.Execution.Closure
import ScopedWhile.Proofs.Execution.Limit

/-!
Sinks observe an execution and do not influence it. Executing with any sink is compared with
executing with a journal, which keeps every datum and refuses none: as long as the sink accepts what
the journal has received, both end alike, and otherwise the execution halts with the first refusal
of the sink, which has received just the data before it.
-/

namespace ScopedWhile

variable {σ : Type}

namespace Sink

/-- Keeps every datum. -/
def journal : Sink (List Datum) where
  emit datum received := (received ++ [datum], none)

/-- Hands data to a sink one after another, up to the first that it refuses. -/
def feed (sink : Sink σ) : σ → List Datum → σ × Option Halt
  | output, [] => (output, none)
  | output, datum :: later => match sink.emit datum output with
    | (output, none) => sink.feed output later
    | refused => refused

variable {sink : Sink σ} {output reached : σ} {first : List Datum}

/-- A sink that has accepted some data goes on from where they led. -/
theorem feed_append_of_accepted (accepted : sink.feed output first = (reached, none))
    (later : List Datum)
    : sink.feed output (first ++ later) = sink.feed reached later := by
  induction first generalizing output with
  | nil =>
      cases accepted
      rfl
  | cons datum rest ih =>
      rcases emits : sink.emit datum output with ⟨next, refusal⟩
      simp only [feed, List.cons_append, emits] at accepted ⊢
      cases refusal with
      | none => exact ih accepted
      | some cause => cases accepted

/-- A sink that has refused a datum is given no more. -/
theorem feed_append_of_refused {cause : Halt}
    (refused : sink.feed output first = (reached, some cause)) (later : List Datum)
    : sink.feed output (first ++ later) = (reached, some cause) := by
  induction first generalizing output with
  | nil => cases refused
  | cons datum rest ih =>
      rcases emits : sink.emit datum output with ⟨next, refusal⟩
      simp only [feed, List.cons_append, emits] at refused ⊢
      cases refusal with
      | none => exact ih refused
      | some cause => exact refused

theorem feed_singleton (datum : Datum)
    : sink.feed output [datum] = sink.emit datum output := by
  rcases emits : sink.emit datum output with ⟨next, refusal⟩
  cases refusal <;> simp only [feed, emits]

/-- A journal has the values in the order in which they were printed. -/
theorem receive_journal (received : List Datum) (values : List Value)
    : journal.receive received values = received ++ values.map Value.toDatum := by
  induction values generalizing received with
  | nil => exact (List.append_nil received).symm
  | cons v rest ih =>
      have step : journal.receive received (v :: rest)
          = journal.receive (received ++ [v.toDatum]) rest := rfl
      rw [step, ih, List.map_cons, List.append_assoc]
      rfl

end Sink

/-- Both machines have the same level, and the sink has accepted all that the journal holds. -/
structure Tracks (sink : Sink σ) (start : σ) (reference : Machine (List Datum)) (m : Machine σ)
    : Prop where
  level : m.level = reference.level
  accepted : sink.feed start reference.output = (m.output, none)

/-- How an execution with a sink ends, given its end with a journal: alike if the sink accepts what
the journal holds at the end, and otherwise with the first refusal. -/
inductive Observes (sink : Sink σ) (start : σ) : Result (List Datum) → Result σ → Prop where
  | whole {outcome reference m} (tracks : Tracks sink start reference m)
    : Observes sink start (outcome, reference) (outcome, m)
  | cut {outcome reference m cause}
    (refused : sink.feed start reference.output = (m.output, some cause))
    : Observes sink start (outcome, reference) (.halted cause, m)

/-- The same setting with a journal as its sink. -/
def Setting.journaled (s : Setting σ) : Setting (List Datum) where
  sink := .journal
  recording := s.recording
  limit := s.limit

-----------------------------------------------------------------------------------------
-- A journal only grows
-----------------------------------------------------------------------------------------

/-- What an execution adds to a journal is what it prints. -/
theorem Follows.output_of_journal {s : Setting σ} {code : Code} {site : Site} {outer : List Level}
    {m : Machine (List Datum)} {steps : List Step} {result : Result (List Datum)}
    (follows : Follows s.journaled code site outer m steps result)
    : result.2.output = m.output ++ (emitted steps).map Value.toDatum := by
  rw [← Sink.receive_journal]
  exact follows.runs.output_eq_receive

/-- A journal only grows while statements are executed. -/
theorem Stmt.journal_grows (s : Setting σ) (stmts : List Stmt) (outer : List Level)
    (m : Machine (List Datum))
    : m.output <+: (Stmt.execAll s.journaled stmts outer m).2.output := by
  obtain ⟨steps, follows⟩ := Stmt.execAll_follows s.journaled stmts .top outer m
  exact ⟨_, follows.output_of_journal.symm⟩

/-- A journal only grows while a loop goes round. -/
theorem Machine.journal_grows (s : Setting σ) (condition : Expr) (body : List Stmt)
    (outer : List Level) (rounds : Nat) (m : Machine (List Datum))
    : m.output
      <+: (iterate (test outer .loop condition)
            (block s.journaled outer (Stmt.execAll s.journaled body)) rounds m).2.output := by
  have rounds : ∃ steps, Follows s.journaled (.action (.loop condition body)) .top outer m steps _ :=
    iterate_follows (block_follows (Stmt.execAll_follows s.journaled body) .top) rounds m
  obtain ⟨steps, follows⟩ := rounds
  exact ⟨_, follows.output_of_journal.symm⟩

-----------------------------------------------------------------------------------------
-- Executions with a sink and with a journal
-----------------------------------------------------------------------------------------

section

variable {s : Setting σ} {start : σ} {reference : Machine (List Datum)} {m : Machine σ}
  {outer : List Level}

namespace Tracks

/-- Recording changes nothing of what is compared. -/
theorem record (tracks : Tracks s.sink start reference m) (event event' : Event)
    : Tracks s.sink start (reference.record s.journaled event) (m.record s event') where
  level := by
    rw [Machine.level_record, Machine.level_record]
    exact tracks.level
  accepted := by
    rw [Machine.output_record, Machine.output_record]
    exact tracks.accepted

theorem withLevel (tracks : Tracks s.sink start reference m) (level : Level)
    : Tracks s.sink start { reference with level } { m with level } :=
  ⟨rfl, tracks.accepted⟩

/-- Expressions are evaluated on the same chain of levels. -/
theorem chain (tracks : Tracks s.sink start reference m) (outer : List Level)
    : m.chain outer = reference.chain outer := by
  rw [Machine.chain, Machine.chain, tracks.level]

/-- The same fault ends both executions. -/
theorem fail (tracks : Tracks s.sink start reference m) (fault : Fault)
    : Observes s.sink start (reference.fail fault) (m.fail fault) :=
  .whole tracks

end Tracks

/-- A sink that has refused something is not asked again, while the journal may go on. -/
theorem Observes.andThen {first : Result (List Datum)} {first' : Result σ}
    {next : Machine (List Datum) → Result (List Datum)} {next' : Machine σ → Result σ}
    (observes : Observes s.sink start first first')
    (continues : ∀ {reference m}, Tracks s.sink start reference m
      → Observes s.sink start (next reference) (next' m))
    (grows : ∀ reference, reference.output <+: (next reference).2.output)
    : Observes s.sink start (Result.andThen first next) (Result.andThen first' next') := by
  cases observes with
  | @whole outcome reference m tracks =>
      cases outcome with
      | completed => exact continues tracks
      | halted cause => exact .whole tracks
      | unfinished => exact .whole tracks
  | @cut outcome reference m cause refused =>
      cases outcome with
      | completed =>
          obtain ⟨later, split⟩ := grows reference
          refine .cut ?_
          rw [← split]
          exact Sink.feed_append_of_refused refused later
      | halted _ => exact .cut refused
      | unfinished => exact .cut refused

namespace Machine

/-- A declaration prints nothing, and both executions make it alike. -/
theorem declare_observes (tracks : Tracks s.sink start reference m) (name : String) (value : Expr)
    : Observes s.sink start (reference.declare s.journaled outer name value)
        (m.declare s outer name value) := by
  simp only [declare, tracks.level, tracks.chain outer]
  split
  · exact tracks.fail _
  · cases (reference.chain outer).evaluate value with
    | error fault => exact tracks.fail fault
    | ok v => exact .whole ((tracks.withLevel _).record _ _)

/-- An assignment prints nothing, and both executions make it alike. -/
theorem assign_observes (tracks : Tracks s.sink start reference m) (name : String) (value : Expr)
    : Observes s.sink start (reference.assign s.journaled outer name value)
        (m.assign s outer name value) := by
  simp only [assign, tracks.level, tracks.chain outer]
  split
  · cases (reference.chain outer).evaluate value with
    | error fault => exact tracks.fail fault
    | ok v => exact .whole ((tracks.withLevel _).record _ _)
  · exact tracks.fail _

/-- A print is observed as a whole, or the execution is cut by the refusal of the sink. -/
theorem print_observes (tracks : Tracks s.sink start reference m) (value : Expr)
    : Observes s.sink start (reference.print s.journaled outer value) (m.print s outer value) := by
  simp only [print, tracks.chain outer]
  cases (reference.chain outer).evaluate value with
  | error fault => exact tracks.fail fault
  | ok v =>
      have kept : s.journaled.sink.emit v.toDatum reference.output
          = (reference.output ++ [v.toDatum], none) := rfl
      have received : s.sink.feed start (reference.output ++ [v.toDatum])
          = s.sink.emit v.toDatum m.output := by
        rw [Sink.feed_append_of_accepted tracks.accepted, Sink.feed_singleton]
      rcases emits : s.sink.emit v.toDatum m.output with ⟨output, refusal⟩
      rw [emits] at received
      cases refusal with
      | none =>
          simp only [kept, emits]
          exact .whole ⟨tracks.level, received⟩
      | some cause =>
          simp only [kept, emits]
          exact .cut received

/-- A block is observed if its statements are, by cases over how they end. -/
theorem block_observes {body : List Stmt}
    (observes : ∀ (outer : List Level) {reference m}, Tracks s.sink start reference m
      → Observes s.sink start (Stmt.execAll s.journaled body outer reference)
          (Stmt.execAll s body outer m))
    (tracks : Tracks s.sink start reference m)
    : Observes s.sink start (reference.block s.journaled outer (Stmt.execAll s.journaled body))
        (m.block s outer (Stmt.execAll s body)) := by
  have inside := observes (reference.level :: outer) tracks
  rcases result : Stmt.execAll s.journaled body (reference.level :: outer) reference
    with ⟨outcome, inner⟩
  rcases result' : Stmt.execAll s body (reference.level :: outer) m with ⟨outcome', inner'⟩
  rw [result, result'] at inside
  rw [← tracks.level] at result'
  cases inside with
  | whole tracked =>
      by_cases completes : outcome = .completed
      · subst completes
        rw [block_of_completed result, block_of_completed result', tracks.level, tracked.level]
        exact .whole ((tracked.withLevel _).record _ _)
      · rw [block_of_stopped result completes, block_of_stopped result' completes, tracks.level]
        exact .whole (tracked.withLevel _)
  | cut refused =>
      rw [block_of_stopped result' nofun]
      by_cases completes : outcome = .completed
      · subst completes
        rw [block_of_completed result]
        refine .cut ?_
        rw [output_record]
        exact refused
      · rw [block_of_stopped result completes]
        exact .cut refused

/-- A loop is observed if its rounds are, by induction on the rounds. -/
theorem iterate_observes {condition : Expr} {body : List Stmt}
    (observes : ∀ {reference m}, Tracks s.sink start reference m
      → Observes s.sink start (reference.block s.journaled outer (Stmt.execAll s.journaled body))
          (m.block s outer (Stmt.execAll s body)))
    (rounds : Nat) (tracks : Tracks s.sink start reference m)
    : Observes s.sink start
        (iterate (test outer .loop condition)
          (block s.journaled outer (Stmt.execAll s.journaled body)) rounds reference)
        (iterate (test outer .loop condition) (block s outer (Stmt.execAll s body)) rounds m) := by
  induction rounds generalizing reference m with
  | zero => exact .whole tracks
  | succ rounds ih =>
      have same : m.test outer .loop condition = reference.test outer .loop condition := by
        simp only [test, tracks.chain outer]
      cases gives : reference.test outer .loop condition with
      | error fault =>
          simp only [iterate, same, gives]
          exact tracks.fail fault
      | ok b =>
          cases b with
          | false =>
              simp only [iterate, same, gives]
              exact .whole tracks
          | true =>
              rw [iterate_of_true gives, iterate_of_true (same.trans gives)]
              exact (observes tracks).andThen ih (journal_grows s condition body outer rounds)

end Machine

end

mutual

/-- A statement executed with a journal is observed with any sink, up to a refusal. -/
theorem Stmt.exec_observes (s : Setting σ) (start : σ) (stmt : Stmt) (outer : List Level)
    {reference : Machine (List Datum)} {m : Machine σ} (tracks : Tracks s.sink start reference m)
    : Observes s.sink start (stmt.exec s.journaled outer reference) (stmt.exec s outer m) := by
  cases stmt with
  | declare name value =>
      simp only [exec]
      exact Machine.declare_observes (tracks.record _ _) name value
  | assign name value =>
      simp only [exec]
      exact Machine.assign_observes (tracks.record _ _) name value
  | print value =>
      simp only [exec]
      exact Machine.print_observes (tracks.record _ _) value
  | branch condition whenTrue whenFalse =>
      have entered := tracks.record (.entered (.branch condition whenTrue whenFalse)
        (reference.chain outer)) (.entered (.branch condition whenTrue whenFalse) (m.chain outer))
      simp only [exec, Machine.test, entered.chain outer]
      cases value : (Machine.chain _ outer).evaluate condition with
      | error fault => exact entered.fail fault
      | ok v =>
          cases v with
          | number n => exact entered.fail _
          | boolean b =>
              cases b with
              | true => exact Machine.block_observes (Stmt.execAll_observes s start whenTrue) entered
              | false => exact Machine.block_observes (Stmt.execAll_observes s start whenFalse) entered
  | loop condition body =>
      simp only [exec]
      exact Machine.iterate_observes
        (Machine.block_observes (Stmt.execAll_observes s start body)) s.limit (tracks.record _ _)
termination_by sizeOf stmt

/-- Statements are observed one after another, up to a refusal. -/
theorem Stmt.execAll_observes (s : Setting σ) (start : σ) (stmts : List Stmt) (outer : List Level)
    {reference : Machine (List Datum)} {m : Machine σ} (tracks : Tracks s.sink start reference m)
    : Observes s.sink start (Stmt.execAll s.journaled stmts outer reference)
        (Stmt.execAll s stmts outer m) := by
  cases stmts with
  | nil => exact .whole tracks
  | cons stmt rest =>
      rw [execAll_cons, execAll_cons]
      exact (Stmt.exec_observes s start stmt outer tracks).andThen
        (Stmt.execAll_observes s start rest outer) (Stmt.journal_grows s rest outer)
termination_by sizeOf stmts

end

-----------------------------------------------------------------------------------------
-- What each channel makes of the data it is handed
-----------------------------------------------------------------------------------------

namespace Channel

/-- A channel that keeps every datum. -/
def KeepsAll (channel : Channel) : Prop :=
  ∀ datum t, channel.sink.emit datum t = ({ t with values := t.values.push datum }, none)

/-- A channel that keeps all data has them all at the end. -/
theorem KeepsAll.feed {channel : Channel} (keeps : channel.KeepsAll) (data : List Datum)
    (t : Transcript)
    : channel.sink.feed t data = ({ t with values := t.values ++ data.toArray }, none) := by
  induction data generalizing t with
  | nil => simp [Sink.feed]
  | cons datum rest ih =>
      simp only [Sink.feed, keeps datum t]
      rw [ih]
      simp

/-- The lines that a stream writes for values. -/
def lines (values : List Value) : String :=
  String.join (values.map fun v => v.display ++ "\n")

/-- A stream has the display texts of all values, a line each. -/
theorem feed_stream (values : List Value) (t : Transcript)
    : Channel.stream.sink.feed t (values.map Value.toDatum)
      = ({ t with text := t.text ++ lines values }, none) := by
  induction values generalizing t with
  | nil => simp [Sink.feed, lines]
  | cons v rest ih =>
      have emits : Channel.stream.sink.emit v.toDatum t
          = ({ t with text := t.text ++ v.display ++ "\n" }, none) := by
        simp [Channel.sink, Datum.display]
      simp only [List.map_cons, Sink.feed, emits]
      rw [ih]
      simp [lines, String.append_assoc]

/-- A function that may refuse takes data up to its capacity, those taken before included. -/
theorem feed_function {capacity : Nat} (data : List Datum) {t : Transcript}
    (within : t.values.size ≤ capacity)
    : (Channel.function (some capacity)).sink.feed t data
      = ({ t with values := t.values ++ (data.take (capacity - t.values.size)).toArray },
          if t.values.size + data.length ≤ capacity then none
          else some (.refused "sink failed")) := by
  induction data generalizing t with
  | nil => simp [Sink.feed, within]
  | cons datum rest ih =>
      by_cases room : t.values.size < capacity
      · have emits : (Channel.function (some capacity)).sink.emit datum t
            = ({ t with values := t.values.push datum }, none) := if_pos room
        have left : capacity - t.values.size = capacity - (t.values.size + 1) + 1 := by omega
        have total : t.values.size + 1 + rest.length = t.values.size + (rest.length + 1) := by omega
        simp only [Sink.feed, emits]
        rw [ih (by simpa using Nat.succ_le_of_lt room), left]
        simp [total]
      · have emits : (Channel.function (some capacity)).sink.emit datum t
            = (t, some (.refused "sink failed")) := if_neg room
        have full : capacity - t.values.size = 0 := by omega
        have overfull : ¬ t.values.size + (rest.length + 1) ≤ capacity := by omega
        simp [Sink.feed, emits, full, overfull]

end Channel

-----------------------------------------------------------------------------------------
-- Reports of runs with different outputs
-----------------------------------------------------------------------------------------

/-- The execution of a program with a journal. -/
def Program.journal (p : Program) (recording : Bool) (limit : Nat) : Result (List Datum) :=
  p.exec { sink := .journal, recording, limit } []

section

variable {p : Program} {recording : Bool} {limit : Nat}

/-- The execution of a program with any sink observes the one with a journal. -/
theorem Program.exec_observes (p : Program) (s : Setting σ) (output : σ)
    : Observes s.sink output (p.exec s.journaled []) (p.exec s output) :=
  Stmt.execAll_observes s output p.statements [] ⟨rfl, rfl⟩

/-- With a journal a program runs by the rules and writes down what it prints. -/
theorem Program.journal_follows (p : Program) (recording : Bool) (limit : Nat)
    : ∃ steps,
        p.Runs .journal [] steps (p.journal recording limit).1 (p.journal recording limit).2.config
        ∧ (p.journal recording limit).2.output = (emitted steps).map Value.toDatum := by
  obtain ⟨steps, runs, _⟩ := p.exec_follows { sink := .journal, recording, limit } []
  refine ⟨steps, runs, ?_⟩
  have received := runs.output_eq_receive
  rw [Sink.receive_journal] at received
  exact received

/-- With a journal a program halts for ordinary faults only. -/
theorem Program.journal_halts {cause : Halt} (halts : (p.journal recording limit).1 = .halted cause)
    : ∃ fault, cause = .fault fault ∧ fault.isOrdinary = true := by
  obtain ⟨steps, runs, _⟩ := p.journal_follows recording limit
  rcases runs.halts_for Chain.Basic.root halts with ordinary | ⟨_, _, _, refused⟩
  · exact ordinary
  · cases refused

/-- A journal that is finished is the same under every larger limit. -/
theorem Program.journal_of_limit_le (finishes : (p.journal recording limit).1 ≠ .unfinished)
    {rounds : Nat} (le : limit ≤ rounds)
    : p.journal recording rounds = p.journal recording limit :=
  Stmt.execAll_keeps { sink := .journal, recording, limit } le p.statements [] _ finishes

variable {target : RunTarget} {output : Output} {channel : Channel} {t : Transcript}

/-- Whatever its output, a run observes the execution with a journal. -/
theorem run_observes (resolves : target.resolve = .ok p) (channels : output.resolve = .ok channel)
    (recording : Bool) (limit : Nat)
    : ∃ outcome m,
        Observes channel.sink {} (p.journal recording limit) (outcome, m)
        ∧ (run target output recording limit).ending = outcome.ending m.level
        ∧ (run target output recording limit).transcript = m.output := by
  have observes := p.exec_observes { sink := channel.sink, recording, limit } {}
  rcases result : p.exec { sink := channel.sink, recording, limit } {} with ⟨outcome, m⟩
  rw [result] at observes
  exact ⟨outcome, m, observes, run_of_exec recording limit resolves channels result⟩

/-- A run whose channel accepts the journal ends as the journal does. -/
theorem run_of_accepted (resolves : target.resolve = .ok p)
    (channels : output.resolve = .ok channel)
    (accepted : channel.sink.feed {} (p.journal recording limit).2.output = (t, none))
    : (run target output recording limit).ending
        = (p.journal recording limit).1.ending (p.journal recording limit).2.level
      ∧ (run target output recording limit).transcript = t := by
  obtain ⟨outcome, m, observes, ending, transcript⟩ :=
    run_observes resolves channels recording limit
  rcases journal : p.journal recording limit with ⟨outcome', reference⟩
  rw [journal] at accepted observes
  cases observes with
  | whole tracks =>
      have received := accepted.symm.trans tracks.accepted
      rw [ending, transcript, tracks.level]
      exact ⟨rfl, (congrArg Prod.fst received).symm⟩
  | cut refused => cases accepted.symm.trans refused

/-- A run whose channel refuses something of the journal ends there. -/
theorem run_of_refused (resolves : target.resolve = .ok p)
    (channels : output.resolve = .ok channel) {cause : Halt}
    (refused : channel.sink.feed {} (p.journal recording limit).2.output = (t, some cause))
    : (run target output recording limit).ending = .error (.halted cause)
      ∧ (run target output recording limit).transcript = t := by
  obtain ⟨outcome, m, observes, ending, transcript⟩ :=
    run_observes resolves channels recording limit
  rcases journal : p.journal recording limit with ⟨outcome', reference⟩
  rw [journal] at refused observes
  cases observes with
  | whole tracks => cases refused.symm.trans tracks.accepted
  | cut cut =>
      have received := refused.symm.trans cut
      rw [ending, transcript]
      cases received
      exact ⟨rfl, rfl⟩

/-- A run whose channel keeps everything has the journal at the end. -/
theorem run_of_keepsAll (resolves : target.resolve = .ok p)
    (channels : output.resolve = .ok channel) (keeps : channel.KeepsAll) (recording : Bool)
    (limit : Nat)
    : (run target output recording limit).ending
        = (p.journal recording limit).1.ending (p.journal recording limit).2.level
      ∧ (run target output recording limit).transcript.values.toList
        = (p.journal recording limit).2.output := by
  have accepted := keeps.feed (p.journal recording limit).2.output {}
  obtain ⟨ending, transcript⟩ := run_of_accepted resolves channels accepted
  exact ⟨ending, by simp [transcript]⟩

end

/-- What the runs of a target with all kinds of output have in common: they end in one way and print
certain values, unless the output does not take so many. -/
structure EndsAlike (target : RunTarget) (recording : Bool) (limit : Nat)
    (ending : Except RunError Level) (printed : List Value) : Prop where
  kept (output : Output)
    : output = .collector ∨ output = .receiver ∨ output = .function none
      → (run target output recording limit).ending = ending
        ∧ (run target output recording limit).transcript.values.toList
          = printed.map Value.toDatum
  streamed (output : Output)
    : output = .stream ∨ output = .console
      → (run target output recording limit).ending = ending
        ∧ (run target output recording limit).transcript.text = Channel.lines printed
  fits (n : Nat)
    : printed.length ≤ n
      → (run target (.function (some n)) recording limit).ending = ending
        ∧ (run target (.function (some n)) recording limit).transcript.values.toList
          = printed.map Value.toDatum
  overflows (n : Nat)
    : n < printed.length
      → (run target (.function (some n)) recording limit).ending
          = .error (.halted (.refused "sink failed"))
        ∧ (run target (.function (some n)) recording limit).transcript.values.toList
          = (printed.take n).map Value.toDatum

/-- Runs of what is no program end alike, whatever the output. -/
theorem EndsAlike.of_unresolved {target : RunTarget} {cause : RunError}
    (fails : target.resolve = .error cause) (recording : Bool) (limit : Nat)
    : EndsAlike target recording limit (.error cause) [] := by
  have report (output : Output) := run_of_unresolved fails output recording limit
  constructor
  · intro output _
    simp [report output]
  · intro output _
    simp [report output, Channel.lines]
  · intro n _
    simp [report (.function (some n))]
  · nofun

/-- Runs of a program end alike, whatever the output, if the journal has the values that are
printed. -/
theorem EndsAlike.of_program {target : RunTarget} {p : Program} (resolves : target.resolve = .ok p)
    {recording : Bool} {limit : Nat} {printed : List Value}
    (received : (p.journal recording limit).2.output = printed.map Value.toDatum)
    : EndsAlike target recording limit
        ((p.journal recording limit).1.ending (p.journal recording limit).2.level) printed := by
  have feed (n : Nat)
      : (Channel.function (some n)).sink.feed {} (p.journal recording limit).2.output
        = ({ values := ((printed.take n).map Value.toDatum).toArray },
            if printed.length ≤ n then none else some (.refused "sink failed")) := by
    rw [received, Channel.feed_function _ (Nat.zero_le n)]
    simp [List.map_take]
  have channels (n : Nat)
      : (Output.function (some n)).resolve = .ok (.function (some n)) :=
    rfl
  constructor
  · rw [← received]
    have collector : Channel.collector.KeepsAll := fun _ _ => rfl
    have receiver : Channel.receiver.KeepsAll := fun _ _ => rfl
    have function : (Channel.function none).KeepsAll := fun _ _ => rfl
    rintro output (rfl | rfl | rfl)
    · exact run_of_keepsAll resolves rfl collector recording limit
    · exact run_of_keepsAll resolves rfl receiver recording limit
    · exact run_of_keepsAll resolves rfl function recording limit
  · intro output named
    have streams : output.resolve = .ok .stream := by
      rcases named with rfl | rfl <;> rfl
    have accepted := Channel.feed_stream printed {}
    rw [← received] at accepted
    obtain ⟨ending, transcript⟩ := run_of_accepted resolves streams accepted
    exact ⟨ending, by simp [transcript]⟩
  · intro n le
    have accepted := feed n
    rw [if_pos le] at accepted
    obtain ⟨ending, transcript⟩ := run_of_accepted resolves (channels n) accepted
    exact ⟨ending, by simp [transcript, List.take_of_length_le le]⟩
  · intro n lt
    have refused := feed n
    rw [if_neg (Nat.not_le.mpr lt)] at refused
    obtain ⟨ending, transcript⟩ := run_of_refused resolves (channels n) refused
    exact ⟨ending, by simp [transcript]⟩

/-- For every program and every sink, executing with the sink ends as with a journal, up to the first
datum that the sink refuses. Hence if the run of a target with the collector finishes, then with all
kinds of output, under this and every larger limit, its runs end alike with the values collected,
and never for want of a display text. -/
theorem sinks_observe_without_influence
    : (∀ {σ : Type} (p : Program) (s : Setting σ) (output : σ),
        Observes s.sink output (p.exec s.journaled []) (p.exec s output))
      ∧ ∀ (target : RunTarget) (recording : Bool) (limit : Nat),
          let collected := run target .collector recording limit
          collected.ending ≠ .error .unfinished
          → (∀ typeName,
              collected.ending ≠ .error (.halted (.fault (.unformattable typeName))))
            ∧ ∃ printed : List Value,
                collected.transcript.values.toList = printed.map Value.toDatum
                ∧ ∀ more,
                    limit ≤ more → EndsAlike target recording more collected.ending printed := by
  refine ⟨Program.exec_observes, ?_⟩
  intro target recording limit collected finishes
  cases resolves : target.resolve with
  | error cause =>
      obtain ⟨ending, transcript⟩ := run_of_unresolved resolves .collector recording limit
      have same : collected.ending = .error cause := ending
      rw [same]
      refine ⟨?_, [], ?_, fun more _ => .of_unresolved resolves recording more⟩
      · intro typeName ends
        cases ends
        exact target.resolve_ne_halted _ resolves
      · simp [collected, transcript]
  | ok p =>
      obtain ⟨steps, _, received⟩ := p.journal_follows recording limit
      obtain ⟨same, values⟩ := (EndsAlike.of_program resolves received).kept .collector (Or.inl rfl)
      have same : collected.ending = _ := same
      have journalFinishes : (p.journal recording limit).1 ≠ .unfinished := by
        intro unfinished
        rw [same, unfinished] at finishes
        exact finishes rfl
      refine ⟨?_, emitted steps, values, ?_⟩
      · intro typeName ends
        rw [same] at ends
        cases outcome : (p.journal recording limit).1 with
        | halted cause =>
            obtain ⟨fault, rfl, ordinary⟩ := Program.journal_halts outcome
            rw [outcome] at ends
            cases ends
            cases ordinary
        | completed | unfinished =>
            rw [outcome] at ends
            cases ends
      · intro more le
        rw [same, ← Program.journal_of_limit_le journalFinishes le]
        apply EndsAlike.of_program resolves
        rw [Program.journal_of_limit_le journalFinishes le]
        exact received

/-- Prints inside of a branch and after it. -/
def Program.twoPrints : Program where
  statements :=
    [ .branch (.boolean true) [.print (.boolean true)] [],
      .print (.binary .and (.boolean true) (.boolean false)) ]

/-- Of two prints a function with room for one refuses the second, and the console takes both. -/
theorem sinks_observe_without_influence_twoPrints
    : let collected := run (.program (.ok .twoPrints)) .collector true 0
      collected.ending ≠ .error .unfinished
      ∧ ∃ printed : List Value,
          collected.transcript.values.toList = printed.map Value.toDatum
          ∧ 1 < printed.length
          ∧ (run (.program (.ok .twoPrints)) (.function (some 1)) true 5).ending
            = .error (.halted (.refused "sink failed"))
          ∧ (run (.program (.ok .twoPrints)) .console true 5).ending = collected.ending := by
  intro collected
  have finishes : collected.ending ≠ .error .unfinished := nofun
  obtain ⟨_, printed, values, alike⟩ :=
    sinks_observe_without_influence.2 (.program (.ok .twoPrints)) true 0 finishes
  have count : printed.length = 2 := by
    rw [← List.length_map Value.toDatum, ← values]
    rfl
  have alike := alike 5 (Nat.zero_le 5)
  exact ⟨finishes, printed, values, by omega, (alike.overflows 1 (by omega)).1,
    (alike.streamed .console (Or.inr rfl)).1⟩

end ScopedWhile
