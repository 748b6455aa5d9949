import ScopedWhile.Proofs.Execution.Names
import ScopedWhile.Proofs.Scope.Restriction

/-!
Reads see the latest write. A run from the empty root reads and writes names in some order over all
its blocks and rounds; every read gives the value of the last write to its name before, and the
values left at the end are those of the last writes. The level that a block has copied holds the
latest values at the start of the block, and the level around it does so again once the block is
merged back.
-/

namespace ScopedWhile

/-- The references in an expression that evaluate successfully, with the values they give, in the
order of evaluation. After a fault in the left operand the right one is not evaluated. -/
def Expr.reads (chain : Chain) : Expr → List (String × Value)
  | .boolean _ | .number _ => []
  | .var name => match chain.evaluate (.var name) with
    | .ok v => [(name, v)]
    | .error _ => []
  | .binary _ left right =>
      left.reads chain ++ match chain.evaluate left with
        | .ok _ => right.reads chain
        | .error _ => []

inductive Access where
  | read (name : String) (value : Value)
  | write (name : String) (value : Value)

def Step.accesses : Step → List Access
  | .evaluated _ e chain => (e.reads chain).map fun found => .read found.1 found.2
  | .declared name value _ | .assigned name value _ => [.write name value]
  | .entered _ _ _ | .emitted _ | .merged _ => []

/-- All reads and writes of a run in the order in which they happen. -/
def accesses (steps : List Step) : List Access :=
  steps.flatMap Step.accesses

/-- The value of the last write to a name. -/
def lastWrite? (past : List Access) (name : String) : Option Value :=
  past.reverse.findSome? fun
    | .write other value => if other = name then some value else none
    | .read _ _ => none

/-- What was read is what a reference in the expression evaluates to. By induction over the
expression: the right operand counts only where the left one has a value. -/
theorem Expr.evaluate_of_mem_reads {chain : Chain} {e : Expr} {name : String} {v : Value}
    (member : (name, v) ∈ e.reads chain)
    : name ∈ e.names ∧ chain.evaluate (.var name) = .ok v := by
  induction e with
  | boolean b => simp [reads] at member
  | number x => simp [reads] at member
  | var other =>
      cases gives : chain.evaluate (.var other) with
      | error fault => simp [reads, gives] at member
      | ok found =>
          simp only [reads, gives, List.mem_singleton, Prod.mk.injEq] at member
          obtain ⟨rfl, rfl⟩ := member
          exact ⟨List.mem_singleton_self name, gives⟩
  | binary op left right first second =>
      rcases List.mem_append.mp member with inLeft | inRight
      · exact (first inLeft).imp_left (List.mem_append_left _)
      · cases result : chain.evaluate left with
        | error fault => simp [result] at inRight
        | ok a =>
            rw [result] at inRight
            exact (second inRight).imp_left (List.mem_append_right _)

/-- An expression that has a value has read every name in it, in its order. -/
theorem Expr.names_of_reads {chain : Chain} {e : Expr} {v : Value}
    (gives : chain.evaluate e = .ok v)
    : (e.reads chain).map Prod.fst = e.names := by
  induction e generalizing v with
  | boolean b => rfl
  | number x => rfl
  | var name => simp [reads, names, gives]
  | binary op left right first second =>
      cases leftValue : chain.evaluate left with
      | error fault =>
          rw [Chain.evaluate_left_fails leftValue] at gives
          cases gives
      | ok a =>
          cases rightValue : chain.evaluate right with
          | error fault =>
              rw [Chain.evaluate_right_fails leftValue rightValue] at gives
              cases gives
          | ok b =>
              simp only [reads, names, leftValue, List.map_append]
              rw [first leftValue, second rightValue]

/-- A read writes nothing. -/
theorem lastWrite?_read (past : List Access) (name other : String) (v : Value)
    : lastWrite? (past ++ [.read other v]) name = lastWrite? past name := by
  simp [lastWrite?]

/-- A write is the last one to its name, and to no other. -/
theorem lastWrite?_write (past : List Access) (name other : String) (v : Value)
    : lastWrite? (past ++ [.write other v]) name
      = if other = name then some v else lastWrite? past name := by
  by_cases same : other = name <;> simp [lastWrite?, same]

/-- Every read gives the value last written to its name, also counting the accesses in the past. -/
def Consistent : (past : List Access) → List Access → Prop
  | _, [] => True
  | past, .read name v :: later =>
      lastWrite? past name = some v ∧ Consistent (past ++ [.read name v]) later
  | past, .write name v :: later => Consistent (past ++ [.write name v]) later

/-- A history is consistent in parts, where the first part belongs to the past of the second. -/
theorem consistent_append {past first later : List Access}
    : Consistent past (first ++ later)
      ↔ Consistent past first ∧ Consistent (past ++ first) later := by
  induction first generalizing past with
  | nil => simp [Consistent]
  | cons access rest ih =>
      cases access with
      | read name v => simp [Consistent, ih, and_assoc]
      | write name v => simp [Consistent, ih]

/-- Reads that follow each other without a write in between are judged by the same past. -/
theorem consistent_reads {past : List Access} {found : List (String × Value)}
    (latest : ∀ name v, (name, v) ∈ found → lastWrite? past name = some v)
    : Consistent past (found.map fun entry => .read entry.1 entry.2) := by
  induction found generalizing past with
  | nil => trivial
  | cons entry rest ih =>
      refine ⟨latest entry.1 entry.2 (by simp), ih ?_⟩
      intro name v member
      rw [lastWrite?_read]
      exact latest name v (List.mem_cons_of_mem entry member)

/-- A level that holds for every name the value last written to it. -/
def Level.UpToDate (level : Level) (past : List Access) : Prop :=
  ∀ name datum,
    level.get? name = some datum
    → ∃ v : Value, datum = v.toDatum ∧ lastWrite? past name = some v

namespace Level.UpToDate

theorem empty
    : Level.empty.UpToDate [] := by
  intro name datum held
  simp [get?, Level.empty] at held

/-- Setting a name in a level keeps it up to date if the write is recorded. -/
theorem set {level : Level} {past : List Access} (current : level.UpToDate past) (name : String)
    (v : Value)
    : (level.set name v.toDatum).UpToDate (past ++ [.write name v]) := by
  intro other datum held
  rw [lastWrite?_write]
  rcases of_get?_set held with ⟨same, written⟩ | ⟨differs, old⟩
  · exact ⟨v, written, if_pos same.symm⟩
  · rw [if_neg differs.symm]
    exact current other datum old

/-- Reads do not put a level out of date, by induction over the reads. -/
theorem reads {level : Level} {past : List Access} (current : level.UpToDate past)
    (found : List (String × Value))
    : level.UpToDate (past ++ found.map fun entry => .read entry.1 entry.2) := by
  induction found generalizing past with
  | nil => simpa using current
  | cons entry rest ih =>
      rw [List.map_cons, List.append_cons]
      apply ih
      intro name datum held
      rw [lastWrite?_read]
      exact current name datum held

/-- Merging back hands the latest values of a block to the level around it. -/
theorem mergeBack {level inner : Level} {past : List Access} (current : inner.UpToDate past)
    (grown : level.names <+: inner.names)
    : (level.mergeBack inner).UpToDate past := by
  intro name datum held
  rw [mergeBack_eq_restrict grown, get?_restrict] at held
  by_cases bound : name ∈ level.names
  · rw [if_pos bound] at held
    exact current name datum held
  · rw [if_neg bound] at held
    cases held

/-- In an up-to-date level that covers the levels around it, a lookup finds the last write. -/
theorem lookup? {level : Level} {past : List Access} {outer : List Level}
    (current : level.UpToDate past) (covers : level.Covers outer) {name : String} {v : Value}
    (found : Chain.lookup? { level, outer } name = some v)
    : lastWrite? past name = some v := by
  have here : Chain.lookup? { level, outer := [] } name = some v := by
    rw [← Chain.lookup?_covered covers [] name, List.append_nil]
    exact found
  cases held : level.get? name with
  | none => simp [Chain.lookup?, Chain.nearest?, Chain.levels, held] at here
  | some datum =>
      obtain ⟨w, rfl, last⟩ := current name datum held
      have same : w = v := by
        simpa [Chain.lookup?_of_get? held] using here
      rw [last, same]

end Level.UpToDate

-----------------------------------------------------------------------------------------
-- Every step of a run keeps the current level up to date
-----------------------------------------------------------------------------------------

@[simp]
theorem accesses_nil
    : accesses [] = [] :=
  rfl

@[simp]
theorem accesses_cons (step : Step) (later : List Step)
    : accesses (step :: later) = step.accesses ++ accesses later :=
  rfl

@[simp]
theorem accesses_append (first later : List Step)
    : accesses (first ++ later) = accesses first ++ accesses later :=
  List.flatMap_append

section

variable {σ : Type} {c : Config σ} {outer : List Level} {past : List Access}

/-- In an up-to-date level an expression reads last writes only, and the level stays up to date. -/
theorem Level.UpToDate.evaluated (current : c.level.UpToDate past) (covers : c.level.Covers outer)
    (site : Site) (e : Expr)
    : Consistent past (Step.evaluated site e (c.chain outer)).accesses
      ∧ c.level.UpToDate (past ++ (Step.evaluated site e (c.chain outer)).accesses) := by
  refine ⟨consistent_reads fun name v member => ?_, current.reads _⟩
  have gives := (Expr.evaluate_of_mem_reads member).2
  exact current.lookup? covers (Chain.lookup_eq_ok_iff.mp gives)

/-- A level that is up to date stays so, and in the meantime nothing else is read. By induction over
the run: a block starts on a copy of the level, which covers the level itself. -/
theorem Runs.consistent {sink : Sink σ} {code : Code} {site : Site} {c' : Config σ}
    {steps : List Step} {outcome : Outcome}
    (run : Runs sink code site outer c steps outcome c')
    (current : c.level.UpToDate past) (covers : c.level.Covers outer)
    : Consistent past (accesses steps)
      ∧ (outcome = .completed → c'.level.UpToDate (past ++ accesses steps)) := by
  induction run generalizing past with
  | enter _ ih => exact ih current covers
  | duplicate _ | undeclared _ => exact ⟨trivial, nofun⟩
  | declareFault _ _ | assignFault _ _ | printFault _ | branchFault _ | loopFault _ =>
      obtain ⟨reads, _⟩ := current.evaluated covers _ _
      exact ⟨by simpa using reads, nofun⟩
  | declare _ _ next | assign _ _ next =>
      obtain ⟨reads, current⟩ := current.evaluated covers _ _
      subst next
      simp only [accesses_cons, accesses_nil, List.append_nil, consistent_append]
      refine ⟨⟨reads, trivial⟩, fun _ => ?_⟩
      rw [← List.append_assoc]
      exact current.set _ _
  | @print value site =>
      obtain ⟨reads, current⟩ := current.evaluated covers site value
      exact ⟨by simpa [Step.accesses] using reads, fun _ => by simpa [Step.accesses] using current⟩
  | branch _ _ ih =>
      obtain ⟨reads, current⟩ := current.evaluated covers _ _
      rw [accesses_cons, consistent_append, ← List.append_assoc]
      exact ⟨⟨reads, (ih current covers).1⟩, (ih current covers).2⟩
  | loopEnd _ =>
      obtain ⟨reads, current⟩ := current.evaluated covers _ _
      exact ⟨by simpa using reads, fun _ => by simpa using current⟩
  | loopStopped _ _ stops ih =>
      obtain ⟨reads, current⟩ := current.evaluated covers _ _
      rw [accesses_cons, consistent_append]
      exact ⟨⟨reads, (ih current covers).1⟩, fun completes => absurd completes stops⟩
  | loopAgain _ round _ first again =>
      obtain ⟨reads, current⟩ := current.evaluated covers _ _
      obtain ⟨firstReads, current⟩ := first current covers
      have covers := covers.mono round.names_grow.subset
      obtain ⟨laterReads, current⟩ := again (current rfl) covers
      simp only [accesses_cons, accesses_append, consistent_append]
      refine ⟨⟨reads, firstReads, by simpa using laterReads⟩, fun completes => ?_⟩
      simpa using current completes
  | loopCut => exact ⟨trivial, nofun⟩
  | block runs next ih =>
      -- The copy starts with the latest values, and at its end they are merged back.
      obtain ⟨reads, current⟩ := ih current covers.child
      subst next
      rw [accesses_append]
      refine ⟨by simpa [Step.accesses] using reads, fun _ => ?_⟩
      have merged := (current rfl).mergeBack runs.names_grow
      simpa [Step.accesses] using merged
  | blockStopped _ stops _ ih =>
      exact ⟨(ih current covers.child).1, fun completes => absurd completes stops⟩
  | nil => exact ⟨trivial, fun _ => by simpa using current⟩
  | stopped _ stops ih => exact ⟨(ih current covers).1, fun completes => absurd completes stops⟩
  | next runs _ first later =>
      obtain ⟨firstReads, current⟩ := first current covers
      have covers := covers.mono runs.names_grow.subset
      obtain ⟨laterReads, current⟩ := later (current rfl) covers
      rw [accesses_append, consistent_append, ← List.append_assoc]
      exact ⟨⟨firstReads, laterReads⟩, current⟩

/-- In a consistent history each read, wherever it stands, sees the last write before it. -/
theorem Consistent.lastWrite?_of_split {past before after : List Access} {name : String}
    {v : Value} (consistent : Consistent past (before ++ .read name v :: after))
    : lastWrite? (past ++ before) name = some v :=
  (consistent_append.mp consistent).2.1

/-- A read in a run belongs to a reference that the run evaluates. -/
theorem evaluated_of_read {steps : List Step} {name : String} {v : Value}
    (read : .read name v ∈ accesses steps)
    : ∃ site e chain, .evaluated site e chain ∈ steps ∧ (name, v) ∈ e.reads chain := by
  obtain ⟨step, member, inStep⟩ := List.mem_flatMap.mp read
  cases step with
  | evaluated site e chain =>
      obtain ⟨found, inReads, same⟩ := List.mem_map.mp inStep
      cases same
      exact ⟨site, e, chain, member, inReads⟩
  | declared _ _ _ | assigned _ _ _ => simp [Step.accesses] at inStep
  | entered _ _ _ | emitted _ | merged _ => simp [Step.accesses] at inStep

end

/-- In every run of a program from the empty root, finished or not, each reference that evaluates
successfully gives the value of the last write to its name before it, and an expression that has a
value has evaluated all its references. A run that completes leaves for every name the value of the
last write to it. -/
theorem Program.reads_see_latest_writes {σ : Type} (p : Program) (s : Setting σ) (output : σ)
    : (∀ (chain : Chain) (e : Expr),
        (∀ name v, (name, v) ∈ e.reads chain → chain.evaluate (.var name) = .ok v)
        ∧ ∀ v, chain.evaluate e = .ok v → (e.reads chain).map Prod.fst = e.names)
      ∧ p.EveryRun s output fun steps outcome c =>
          (∀ before name v after,
            accesses steps = before ++ .read name v :: after
            → lastWrite? before name = some v
              ∧ ∃ site e chain,
                  .evaluated site e chain ∈ steps
                  ∧ name ∈ e.names
                  ∧ chain.evaluate (.var name) = .ok v)
          ∧ (outcome = .completed
            → ∀ name ∈ c.level.names,
                ∃ v : Value,
                  lastWrite? (accesses steps) name = some v
                  ∧ c.level.get? name = some v.toDatum) := by
  refine ⟨fun chain e => ⟨?_, fun v => Expr.names_of_reads⟩, Stmt.everyRun ?_⟩
  · intro name v member
    exact (Expr.evaluate_of_mem_reads member).2
  intro steps outcome c run
  obtain ⟨consistent, final⟩ := run.consistent Level.UpToDate.empty (Level.Covers.nil _)
  refine ⟨?_, ?_⟩
  · intro before name v after split
    have read : .read name v ∈ accesses steps := by simp [split]
    obtain ⟨site, e, chain, member, inReads⟩ := evaluated_of_read read
    rw [split] at consistent
    exact ⟨by simpa using consistent.lastWrite?_of_split, site, e, chain, member,
      Expr.evaluate_of_mem_reads inReads⟩
  · intro completes name bound
    obtain ⟨datum, held⟩ := Level.exists_get?_of_mem bound
    obtain ⟨v, rfl, last⟩ := final completes name datum held
    exact ⟨v, last, held⟩

/-- A branch that turns its own test, which is printed afterwards. -/
def Program.flip : Program where
  statements :=
    [ .declare "x" (.boolean true),
      .branch (.var "x") [.assign "x" (.boolean false)] [],
      .print (.var "x") ]

/-- After the branch the reference gives the value written inside of it, and not the one it had
before. -/
theorem Program.reads_see_latest_writes_flip
    : ∃ steps c,
        flip.Runs Channel.collector.sink {} steps .completed c
        ∧ accesses steps
          = [.write "x" (.boolean true), .read "x" (.boolean true), .write "x" (.boolean false),
              .read "x" (.boolean false)]
        ∧ lastWrite?
            [.write "x" (.boolean true), .read "x" (.boolean true), .write "x" (.boolean false)]
            "x"
          = some (.boolean false)
        ∧ (∃ site e chain,
            .evaluated site e chain ∈ steps
            ∧ "x" ∈ e.names
            ∧ chain.evaluate (.var "x") = .ok (.boolean false))
        ∧ ∃ v : Value,
            lastWrite? (accesses steps) "x" = some v ∧ c.level.get? "x" = some v.toDatum := by
  obtain ⟨steps, c, run, listed, bound⟩
      : ∃ steps c,
          flip.Runs Channel.collector.sink {} steps .completed c
          ∧ accesses steps
            = [.write "x" (.boolean true), .read "x" (.boolean true), .write "x" (.boolean false),
                .read "x" (.boolean false)]
          ∧ "x" ∈ c.level.names :=
    ⟨_, _,
      .next (.enter (.declare (by decide) rfl rfl))
        (.next
          (.enter (.branch rfl (.block (.next (.enter (.assign (by decide) rfl rfl)) .nil) rfl)))
          (.next (.enter (.print rfl rfl)) .nil)),
      rfl, by decide⟩
  obtain ⟨reads, final⟩ := (reads_see_latest_writes flip
    { sink := Channel.collector.sink, recording := false, limit := 1 } {}).2.of_runs _ _ _ run
  obtain ⟨latest, evaluated⟩ := reads [_, _, _] _ _ [] listed
  exact ⟨steps, c, run, listed, latest, evaluated, final rfl "x" bound⟩

end ScopedWhile
