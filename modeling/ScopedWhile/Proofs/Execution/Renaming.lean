import ScopedWhile.Proofs.Execution.Closure
import ScopedWhile.Proofs.Execution.Comparison

/-!
Runs commute with renaming. Whatever the names of a program are replaced by, as long as different
names stay different, the program prints the same values, leaves the same data under the new names
in the same order, and fails in the same way for the new name. So no name has a meaning of its own.
-/

namespace ScopedWhile

variable {r : String → String}

/-- The level with every name replaced. -/
def Level.rename (injective : Function.Injective r) (level : Level) : Level where
  entries := level.entries.map fun entry => (r entry.1, entry.2)
  distinct := by
    have renamed : (level.names.map r).Nodup :=
      List.Pairwise.map r (fun _ _ differ same => differ (injective same)) level.distinct
    simpa only [names, List.map_map, Function.comp_def] using renamed

/-- Renaming a level keeps the order of its names. -/
theorem Level.names_rename (injective : Function.Injective r) (level : Level)
    : (level.rename injective).names = level.names.map r := by
  simp only [rename, names, List.map_map, Function.comp_def]

/-- A renamed name has the datum of the name. -/
theorem Level.get?_rename (injective : Function.Injective r) (level : Level) (name : String)
    : (level.rename injective).get? (r name) = level.get? name := by
  simp only [rename, get?]
  induction level.entries with
  | nil => rfl
  | cons entry rest ih =>
      obtain ⟨key, datum⟩ := entry
      by_cases same : name = key
      · simp [same]
      · have differs : r name ≠ r key := fun taken => same (injective taken)
        simp only [List.map_cons, List.lookup_cons, beq_eq_false_iff_ne.mpr same,
          beq_eq_false_iff_ne.mpr differs]
        exact ih

def RunError.rename (r : String → String) : RunError → RunError
  | .halted cause => .halted (cause.rename r)
  | cause => cause

/-- The end of a run with every name replaced. -/
def Run.renameEnding (injective : Function.Injective r)
    : Except RunError Level → Except RunError Level
  | .ok level => .ok (level.rename injective)
  | .error cause => .error (cause.rename r)

-----------------------------------------------------------------------------------------
-- Executions under other names
-----------------------------------------------------------------------------------------

section

variable {σ : Type}

/-- All names are in use, and both executions start on levels that bind none. -/
def Comparison.renaming (injective : Function.Injective r) (sink : Sink σ) : Comparison sink where
  known _ := True
  image := r
  injective _ _ same := injective same
  start := []
  start' := []
  alike := Eq
  answers := sink.answers_eq

/-- Levels related by a renaming are renamed copies. -/
theorem Comparison.Levels.eq_rename {injective : Function.Injective r} {sink : Sink σ}
    {level level' : Level} (levels : (Comparison.renaming injective sink).Levels level level')
    : level' = level.rename injective := by
  obtain ⟨added, names, names'⟩ := levels.names
  have same : level'.names = (level.rename injective).names := by
    rw [Level.names_rename, names, names']
    rfl
  apply Level.ext_get? same
  intro name
  by_cases bound : name ∈ level'.names
  · rw [same, Level.names_rename] at bound
    obtain ⟨old, _, rfl⟩ := List.mem_map.mp bound
    rw [Level.get?_rename]
    exact levels.data trivial
  · rw [Level.get?_eq_none_iff.mpr bound, Level.get?_eq_none_iff.mpr (same ▸ bound)]

/-- A program and its renamed copy end in related results. -/
theorem Program.rename_results (injective : Function.Injective r) (p : Program) (s : Setting σ)
    (output : σ)
    : (Comparison.renaming injective s.sink).Results (p.exec s output)
        ((p.rename r).exec s output) := by
  have around : (Comparison.renaming injective s.sink).Outer [] [] := fun _ _ => rfl
  have levels : (Comparison.renaming injective s.sink).Levels .empty .empty :=
    ⟨fun _ => rfl, [], rfl, rfl⟩
  exact (Comparison.renaming injective s.sink).execAll p.statements (fun _ _ => trivial) around
    ⟨levels, rfl⟩

end

/-- The words of a channel that refuses a value hold no name. -/
theorem Comparison.Outcomes.eq_rename_of_channel {channel : Channel}
    {k : Comparison channel.sink} {output : Transcript} {outcome outcome' : Outcome}
    (outcomes : k.Outcomes output outcome outcome')
    : outcome' = outcome.rename k.image := by
  cases outcomes with
  | renamed => rfl
  | refused refuses =>
      obtain ⟨_, rfl⟩ := Channel.refusal_of_emit (congrArg Prod.snd refuses)
      rfl

/-- The ending of a renamed outcome is the renamed ending. -/
theorem Outcome.ending_rename (injective : Function.Injective r) (outcome : Outcome) (level : Level)
    : (outcome.rename r).ending (level.rename injective)
      = Run.renameEnding injective (outcome.ending level) := by
  cases outcome <;> rfl

/-- Runs commute with renaming: the endings are renamed, and the outputs are the same. -/
theorem Program.run_rename (injective : Function.Injective r) (p : Program) (output : Output)
    (recording : Bool) (limit : Nat)
    : (run (.program (.ok (p.rename r))) output recording limit).ending
        = Run.renameEnding injective (run (.program (.ok p)) output recording limit).ending
      ∧ (run (.program (.ok (p.rename r))) output recording limit).transcript
        = (run (.program (.ok p)) output recording limit).transcript := by
  have resolves (q : Program) : (RunTarget.program (.ok q)).resolve = .ok q := rfl
  cases channels : output.resolve with
  | error cause =>
      simp only [run, resolves, channels]
      exact ⟨rfl, trivial⟩
  | ok channel =>
      have results := p.rename_results injective { sink := channel.sink, recording, limit } {}
      rcases plain : p.exec { sink := channel.sink, recording, limit } {} with ⟨outcome, m⟩
      rcases renamed : (p.rename r).exec { sink := channel.sink, recording, limit } {}
        with ⟨outcome', m'⟩
      rw [plain, renamed] at results
      obtain ⟨ending, transcript⟩ := run_of_exec recording limit (resolves p) channels plain
      obtain ⟨ending', transcript'⟩ := run_of_exec recording limit (resolves _) channels renamed
      have outcomes : outcome' = outcome.rename r := results.outcome.eq_rename_of_channel
      have levels : m'.level = m.level.rename injective := results.machine.level.eq_rename
      refine ⟨?_, ?_⟩
      · rw [ending', ending, outcomes, levels]
        exact outcome.ending_rename injective m.level
      · rw [transcript', transcript]
        exact results.machine.output.symm

/-- For every program and every map of names under which different names stay different: executed
under the new names, with any sink, the program hands the same values to the sink, leaves the same
level with its names replaced, and ends in the same way, for the new name if it fails for a name;
where the sink itself stops it, it does so with the same words. Runs with all kinds of output are
reported accordingly. -/
theorem Program.runs_commute_with_renaming (p : Program) (r : String → String)
    (injective : Function.Injective r)
    : (∀ {σ : Type} (s : Setting σ) (output : σ),
        let plain := p.exec s output
        let renamed := (p.rename r).exec s output
        renamed.2.output = plain.2.output
        ∧ renamed.2.level = plain.2.level.rename injective
        ∧ (renamed.1 = plain.1.rename r
          ∨ ∃ (v : Value) (before : σ) (cause : Halt),
              s.sink.emit v.toDatum before = (plain.2.output, some cause)
              ∧ plain.1 = .halted cause
              ∧ renamed.1 = .halted cause))
      ∧ ∀ (output : Output) (recording : Bool) (limit : Nat),
          let plain := run (.program (.ok p)) output recording limit
          let renamed := run (.program (.ok (p.rename r))) output recording limit
          renamed.ending = Run.renameEnding injective plain.ending
          ∧ renamed.transcript = plain.transcript := by
  refine ⟨?_, p.run_rename injective⟩
  intro σ s output plain renamed
  obtain ⟨outcomes, machines⟩ := p.rename_results injective s output
  refine ⟨machines.output.symm, machines.level.eq_rename, ?_⟩
  rcases result : plain with ⟨outcome, m⟩
  rcases result' : renamed with ⟨outcome', m'⟩
  rw [show p.exec s output = _ from result, show (p.rename r).exec s output = _ from result']
    at outcomes
  cases outcomes with
  | renamed => exact Or.inl rfl
  | refused refuses => exact Or.inr ⟨_, _, _, refuses, rfl, rfl⟩

/-- Exchanges two names. -/
def exchange (a b name : String) : String :=
  if name = a then b else if name = b then a else name

/-- Exchanging two names merges none. -/
theorem exchange_injective (a b : String)
    : Function.Injective (exchange a b) := by
  have back (name : String) : exchange a b (exchange a b name) = name := by
    grind [exchange]
  intro first second same
  rw [← back first, same, back]

/-- Prints a name that it declares and then one that it does not. -/
def Program.dangling : Program where
  statements :=
    [.declare "x" (.boolean true), .print (.var "x"), .print (.var "parent")]

/-- Exchanged names show in the fault that a program fails for, and not in its output. -/
theorem Program.runs_commute_with_renaming_dangling
    : Function.Injective (exchange "x" "parent")
      ∧ (run (.program (.ok dangling)) .collector true 1).ending
        = .error (.halted (.fault (.undefinedVariable "parent")))
      ∧ (run (.program (.ok (dangling.rename (exchange "x" "parent")))) .collector true 1).ending
        = .error (.halted (.fault (.undefinedVariable "x")))
      ∧ (run (.program (.ok (dangling.rename (exchange "x" "parent")))) .collector true
          1).transcript.values
        = #[.boolean true] := by
  have injective := exchange_injective "x" "parent"
  have plain : (run (.program (.ok dangling)) .collector true 1).ending
      = .error (.halted (.fault (.undefinedVariable "parent"))) := rfl
  obtain ⟨_, reports⟩ :=
    runs_commute_with_renaming dangling (exchange "x" "parent") injective
  obtain ⟨ending, transcript⟩ := reports .collector true 1
  refine ⟨injective, plain, ?_, ?_⟩
  · rw [ending, plain]
    rfl
  · rw [transcript]
    rfl

end ScopedWhile
