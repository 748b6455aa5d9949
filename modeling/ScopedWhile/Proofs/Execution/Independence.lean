import ScopedWhile.Proofs.Execution.Comparison
import ScopedWhile.Proofs.Execution.Observation

/-!
Statements and the names that they do not mention. A name that occurs nowhere in statements keeps
its datum through them, and no execution depends on it: with a further binding in the current level,
statements do what they do without it. Hence statements that have no name in common can be executed
in either order.
-/

namespace ScopedWhile

def Code.names : Code → List String
  | .stmt statement | .action statement => statement.names
  | .block stmts | .rest stmts => Stmt.namesAll stmts

/-- The branch that is taken mentions names of the statement only. -/
theorem Stmt.forall_names_chosen {condition : Expr} {whenTrue whenFalse : List Stmt}
    {property : String → Prop}
    (all : ∀ name ∈ (Stmt.branch condition whenTrue whenFalse).names, property name) (b : Bool)
    : ∀ name ∈ Stmt.namesAll (if b then whenTrue else whenFalse), property name := by
  obtain ⟨_, blocks⟩ := List.forall_mem_append.mp all
  obtain ⟨inTrue, inFalse⟩ := List.forall_mem_append.mp blocks
  cases b with
  | true => exact inTrue
  | false => exact inFalse

section

variable {σ : Type}

/-- However a run ends, a name that its code does not mention has the datum that it had. -/
theorem Runs.get?_of_unmentioned {sink : Sink σ} {code : Code} {site : Site} {outer : List Level}
    {c c' : Config σ} {steps : List Step} {outcome : Outcome}
    (run : Runs sink code site outer c steps outcome c') {name : String}
    (others : ∀ other ∈ code.names, name ≠ other)
    : c'.level.get? name = c.level.get? name := by
  induction run with
  | enter _ ih => exact ih others
  | duplicate _ | undeclared _ | loopCut | nil | loopEnd _ | print _ _ => rfl
  | declareFault _ _ | assignFault _ _ | printFault _ | branchFault _ | loopFault _ => rfl
  | declare _ _ next | assign _ _ next =>
      obtain ⟨differs, _⟩ := List.forall_mem_cons.mp others
      rw [next, Level.get?_set, if_neg differs]
  | branch _ _ ih => exact ih (Stmt.forall_names_chosen others _)
  | loopStopped _ _ _ ih => exact ih (List.forall_mem_append.mp others).2
  | loopAgain _ _ _ first again =>
      exact (again others).trans (first (List.forall_mem_append.mp others).2)
  | block _ next ih =>
      -- Merging back hands over what the copy has, which is still what was copied.
      rw [next, Level.get?_mergeBack, ih others]
      cases Level.get? _ name <;> rfl
  | blockStopped _ _ next _ => rw [next]
  | stopped _ _ ih => exact ih (List.forall_mem_append.mp others).1
  | next _ _ first later =>
      obtain ⟨notFirst, notLater⟩ := List.forall_mem_append.mp others
      exact (later notLater).trans (first notFirst)

/-- A name that statements do not mention keeps its datum. -/
theorem Stmt.get?_of_unmentioned (s : Setting σ) {stmts : List Stmt} (outer : List Level)
    (m : Machine σ) {name : String} (unmentioned : name ∉ Stmt.namesAll stmts)
    : (Stmt.execAll s stmts outer m).2.level.get? name = m.level.get? name := by
  obtain ⟨steps, runs, _⟩ := Stmt.execAll_follows s stmts .top outer m
  exact runs.get?_of_unmentioned fun other member same => unmentioned (same ▸ member)

/-- Statements depend on the names that they mention only. On levels that agree on certain names,
these included, they end alike, leave levels that agree on the same names, and add the same
names. -/
theorem Stmt.execAll_congr {s : Setting σ} (known : String → Prop) (alike : σ → σ → Prop)
    (answers : s.sink.Answers alike)
    {stmts : List Stmt} (mentioned : ∀ name ∈ Stmt.namesAll stmts, known name)
    (outer : List Level) (m m' : Machine σ)
    (same : ∀ name, known name → m'.level.get? name = m.level.get? name)
    (outputs : alike m.output m'.output)
    : let result := Stmt.execAll s stmts outer m
      let result' := Stmt.execAll s stmts outer m'
      result'.1 = result.1
      ∧ alike result.2.output result'.2.output
      ∧ (∀ name, known name → result'.2.level.get? name = result.2.level.get? name)
      ∧ ∃ added,
          result.2.level.names = m.level.names ++ added
          ∧ result'.2.level.names = m'.level.names ++ added := by
  intro result result'
  let k : Comparison s.sink :=
    { known, image := id, injective := fun _ _ same => same, start := m.level.names,
      start' := m'.level.names, alike, answers }
  have levels : k.Levels m.level m'.level :=
    ⟨fun {name} known => same name known, [], by simp [k], by simp [k]⟩
  have results : k.Results result _ := k.execAll stmts mentioned (fun _ _ => rfl) ⟨levels, outputs⟩
  rw [Stmt.renameAll_id] at results
  obtain ⟨outcomes, machines⟩ := results
  obtain ⟨added, names, names'⟩ := machines.level.names
  refine ⟨?_, machines.output, fun name known => machines.level.data known, added, names, ?_⟩
  · rcases ended : result with ⟨outcome, final⟩
    rcases ended' : result' with ⟨outcome', final'⟩
    rw [ended, show Stmt.execAll s stmts outer m' = _ from ended'] at outcomes
    cases outcomes with
    | renamed => exact outcome.rename_id
    | refused _ => rfl
  · simpa [k] using names'

end

-----------------------------------------------------------------------------------------
-- One more binding
-----------------------------------------------------------------------------------------

/-- The level with one more entry, which comes after the given number of the others. -/
def Level.insertAt (level : Level) (place : Nat) (name : String) (datum : Datum)
    (fresh : name ∉ level.names) : Level where
  entries := level.entries.take place ++ (name, datum) :: level.entries.drop place
  distinct := by
    have perm : (level.entries.take place ++ (name, datum) :: level.entries.drop place).Perm
        ((name, datum) :: level.entries) := by
      have middle : (level.entries.take place ++ (name, datum) :: level.entries.drop place).Perm
          ((name, datum) :: (level.entries.take place ++ level.entries.drop place)) :=
        List.perm_middle
      rwa [List.take_append_drop] at middle
    exact (perm.map Prod.fst).nodup_iff.mpr (List.nodup_cons.mpr ⟨fresh, level.distinct⟩)

namespace Level

variable {level : Level} {place : Nat} {name : String} {datum : Datum} {fresh : name ∉ level.names}

/-- An inserted name stands at its place among the others. -/
theorem names_insertAt
    : (level.insertAt place name datum fresh).names
      = level.names.take place ++ name :: level.names.drop place := by
  simp only [insertAt, names, List.map_append, List.map_cons, List.map_take, List.map_drop]

/-- An inserted name has its datum, and the others keep theirs. -/
theorem get?_insertAt (other : String)
    : (level.insertAt place name datum fresh).get? other
      = if other = name then some datum else level.get? other := by
  have split : level.get? other
      = ((level.entries.take place).lookup other).or ((level.entries.drop place).lookup other) := by
    rw [← List.lookup_append, List.take_append_drop, get?]
  simp only [get?, insertAt, List.lookup_append]
  by_cases same : other = name
  · subst same
    rw [get?_eq_none_iff.mpr fresh, eq_comm, Option.or_eq_none_iff] at split
    simp [split.1]
  · rw [if_neg same, List.lookup_cons, beq_eq_false_iff_ne.mpr same]
    exact split.symm

end Level

/-- On every chain of levels, with any sink: if statements do not mention a name, then executing
them on the current level and on that level with an entry for this name, whatever its place and its
datum, ends alike with the same output, and with levels of which the second is the first with just
this entry in its old place. -/
theorem Stmt.execAll_ignores_unmentioned {σ : Type} (s : Setting σ) (stmts : List Stmt)
    (outer : List Level) (m : Machine σ) (name : String) (datum : Datum)
    (unmentioned : name ∉ Stmt.namesAll stmts) (fresh : name ∉ m.level.names) (place : Nat)
    (within : place ≤ m.level.names.length)
    : let plain := Stmt.execAll s stmts outer m
      let wide := Stmt.execAll s stmts outer
        { m with level := m.level.insertAt place name datum fresh }
      wide.1 = plain.1
      ∧ wide.2.output = plain.2.output
      ∧ ∃ freshAfter, wide.2.level = plain.2.level.insertAt place name datum freshAfter := by
  intro plain wide
  have same (other : String) (differs : other ≠ name)
      : (m.level.insertAt place name datum fresh).get? other = m.level.get? other := by
    rw [Level.get?_insertAt, if_neg differs]
  have mentioned : ∀ other ∈ Stmt.namesAll stmts, other ≠ name := by
    rintro other member rfl
    exact unmentioned member
  obtain ⟨outcome, output, data, added, names, names'⟩ :=
    Stmt.execAll_congr (· ≠ name) Eq s.sink.answers_eq mentioned outer m
      { m with level := m.level.insertAt place name datum fresh } same rfl
  have absent : plain.2.level.get? name = none :=
    (Stmt.get?_of_unmentioned s outer m unmentioned).trans (Level.get?_eq_none_iff.mpr fresh)
  refine ⟨outcome, output.symm, Level.get?_eq_none_iff.mp absent, Level.ext_get? ?_ ?_⟩
  · rw [Level.names_insertAt, names', Level.names_insertAt, names,
      List.take_append_of_le_length within, List.drop_append_of_le_length within]
    simp
  · intro other
    rw [Level.get?_insertAt]
    by_cases differs : other = name
    · subst differs
      rw [if_pos rfl]
      refine (Stmt.get?_of_unmentioned s outer _ unmentioned).trans ?_
      rw [Level.get?_insertAt, if_pos rfl]
    · rw [if_neg differs]
      exact data other differs

/-- A failing statement fails the same with an unmentioned name in the middle of the level. -/
theorem Stmt.execAll_ignores_unmentioned_failing
    : let s : Setting Transcript :=
        { sink := Channel.collector.sink, recording := false, limit := 3 }
      "w" ∉ Stmt.namesAll [Stmt.failing]
      ∧ ∃ fresh : "w" ∉ Machine.ready.level.names,
          1 ≤ Machine.ready.level.names.length
          ∧ let wide := Stmt.execAll s [Stmt.failing] []
              { Machine.ready with level := Machine.ready.level.insertAt 1 "w" .null fresh }
            wide.1 = .halted (.fault (.undefinedVariable "z"))
            ∧ wide.2.level.names = ["x", "w", "y"]
            ∧ wide.2.level.get? "w" = some .null := by
  intro s
  have unmentioned : "w" ∉ Stmt.namesAll [Stmt.failing] := by decide
  have fresh : "w" ∉ Machine.ready.level.names := by decide
  obtain ⟨outcome, _, freshAfter, level⟩ :=
    Stmt.execAll_ignores_unmentioned s [Stmt.failing] [] .ready "w" .null unmentioned fresh 1
      (by decide)
  refine ⟨unmentioned, fresh, by decide, outcome.trans (by decide), ?_, ?_⟩
  · rw [level, Level.names_insertAt]
    decide
  · rw [level, Level.get?_insertAt]
    rfl

-----------------------------------------------------------------------------------------
-- Either order
-----------------------------------------------------------------------------------------

section

variable {σ : Type}

/-- What a sink accepts one after another, it accepts in exchanged parts as well. -/
def Sink.IgnoresOrder (sink : Sink σ) : Prop :=
  ∀ (output : σ) (first later : List Datum),
    (sink.feed output (first ++ later)).2 = none
    → (sink.feed output (later ++ first)).2 = none

/-- A sink that accepts data in a row accepts the first ones and then the others. -/
theorem Sink.feed_split {sink : Sink σ} {output : σ} {first later : List Datum}
    (accepted : (sink.feed output (first ++ later)).2 = none)
    : ∃ reached final,
        sink.feed output first = (reached, none) ∧ sink.feed reached later = (final, none) := by
  rcases fed : sink.feed output first with ⟨reached, refusal⟩
  cases refusal with
  | none =>
      rw [Sink.feed_append_of_accepted fed] at accepted
      exact ⟨reached, _, rfl, Prod.ext rfl accepted⟩
  | some cause =>
      rw [Sink.feed_append_of_refused fed] at accepted
      cases accepted

/-- A sink that refuses nothing accepts all data, by induction over the data. -/
theorem Sink.feed_of_accepting {sink : Sink σ}
    (accepts : ∀ datum output, (sink.emit datum output).2 = none) (output : σ) (data : List Datum)
    : (sink.feed output data).2 = none := by
  induction data generalizing output with
  | nil => rfl
  | cons datum rest ih =>
      have accepted := accepts datum output
      rcases emits : sink.emit datum output with ⟨next, refusal⟩
      rw [emits] at accepted
      obtain rfl : refusal = none := accepted
      simp only [feed, emits, ih]

namespace Channel

/-- A stream accepts exactly the data that have a display text. -/
theorem feed_stream_iff {t : Transcript} {data : List Datum}
    : (stream.sink.feed t data).2 = none ↔ ∀ datum ∈ data, ∃ text, datum.display = .ok text := by
  induction data generalizing t with
  | nil => exact ⟨nofun, fun _ => rfl⟩
  | cons datum rest ih =>
      cases shown : datum.display with
      | ok text =>
          have step : stream.sink.emit datum t
              = ({ t with text := t.text ++ text ++ "\n" }, none) := by simp [sink, shown]
          simp [Sink.feed, step, shown, ih]
      | error fault =>
          have step : stream.sink.emit datum t = (t, some (.fault fault)) := by simp [sink, shown]
          simp [Sink.feed, step, shown]

/-- A function accepts data as long as it has room for them. -/
theorem feed_function_iff {capacity : Nat} {t : Transcript} {data : List Datum}
    : ((function (some capacity)).sink.feed t data).2 = none
      ↔ data.length ≤ capacity - t.values.size := by
  induction data generalizing t with
  | nil => exact ⟨fun _ => Nat.zero_le _, fun _ => rfl⟩
  | cons datum rest ih =>
      by_cases room : t.values.size < capacity
      · have step : (function (some capacity)).sink.emit datum t
            = ({ t with values := t.values.push datum }, none) := if_pos room
        simp only [Sink.feed, step, ih, Array.size_push, List.length_cons]
        omega
      · have step : (function (some capacity)).sink.emit datum t
            = (t, some (.refused "sink failed")) := if_neg room
        simp only [Sink.feed, step, reduceCtorEq, false_iff, List.length_cons]
        omega

/-- Channels refuse a datum that cannot be shown, or one too many, in whatever order they come. -/
theorem ignoresOrder (channel : Channel)
    : channel.sink.IgnoresOrder := by
  intro t first later accepted
  cases channel with
  | collector | receiver => exact Sink.feed_of_accepting (fun _ _ => rfl) t _
  | stream =>
      rw [feed_stream_iff, List.forall_mem_append] at accepted ⊢
      exact accepted.symm
  | function capacity =>
      cases capacity with
      | none => exact Sink.feed_of_accepting (fun _ _ => rfl) t _
      | some capacity =>
          rw [feed_function_iff, List.length_append] at accepted ⊢
          omega

end Channel

/-- Statements complete and print the given data: these are what a journal receives in the place of
the sink, and the sink has accepted them one after another. -/
structure Stmt.Completes (s : Setting σ) (stmts : List Stmt) (outer : List Level) (m : Machine σ)
    (printed : List Datum) (m' : Machine σ) : Prop where
  result : Stmt.execAll s stmts outer m = (.completed, m')
  journal
    : (Stmt.execAll s.journaled stmts outer { level := m.level, output := [] }).2.output = printed
  received : s.sink.feed m.output printed = (m'.output, none)

/-- Statements that complete do so with a journal too, which has what they print. -/
theorem Stmt.journal_of_completed {s : Setting σ} {stmts : List Stmt} {outer : List Level}
    {m m' : Machine σ} (result : Stmt.execAll s stmts outer m = (.completed, m'))
    : ∃ final,
        Stmt.execAll s.journaled stmts outer { level := m.level, output := [] }
          = (.completed, final)
        ∧ Tracks s.sink m.output final m' := by
  have same : Tracks s.sink m.output { level := m.level, output := [] } m := ⟨rfl, rfl⟩
  have observes := Stmt.execAll_observes s m.output stmts outer same
  rcases journal : Stmt.execAll s.journaled stmts outer { level := m.level, output := [] }
    with ⟨outcome, final⟩
  rw [result, journal] at observes
  cases observes with
  | whole tracks => exact ⟨final, rfl, tracks⟩

/-- Statements that complete have printed some data. -/
theorem Stmt.exists_completes {s : Setting σ} {stmts : List Stmt} {outer : List Level}
    {m m' : Machine σ} (result : Stmt.execAll s stmts outer m = (.completed, m'))
    : ∃ printed, Stmt.Completes s stmts outer m printed m' := by
  obtain ⟨final, journal, tracks⟩ := Stmt.journal_of_completed result
  exact ⟨final.output, result, by rw [journal], tracks.accepted⟩

/-- Statements that complete leave unmentioned names as they were. -/
theorem Stmt.Completes.kept {s : Setting σ} {stmts : List Stmt} {outer : List Level}
    {m m' : Machine σ} {printed : List Datum}
    (completes : Stmt.Completes s stmts outer m printed m') {name : String}
    (unmentioned : name ∉ Stmt.namesAll stmts)
    : m'.level.get? name = m.level.get? name := by
  have frame := Stmt.get?_of_unmentioned s outer m unmentioned
  rwa [completes.result] at frame

/-- Statements on a level that agrees on all names that they mention, with a sink that accepts what
they print: they complete again, and the levels that they leave agree on these names. -/
theorem Stmt.Completes.again {s : Setting σ} {stmts : List Stmt} {outer : List Level}
    {m m' : Machine σ} {printed : List Datum}
    (completes : Stmt.Completes s stmts outer m printed m') (other : Machine σ)
    (same : ∀ name ∈ Stmt.namesAll stmts, other.level.get? name = m.level.get? name) {output : σ}
    (accepted : s.sink.feed other.output printed = (output, none))
    : ∃ other',
        Stmt.Completes s stmts outer other printed other'
        ∧ ∀ name ∈ Stmt.namesAll stmts, other'.level.get? name = m'.level.get? name := by
  obtain ⟨final, journal, tracks⟩ := Stmt.journal_of_completed completes.result
  obtain rfl : final.output = printed := by rw [← completes.journal, journal]
  obtain ⟨outcome, outputs, data, _⟩ := Stmt.execAll_congr (· ∈ Stmt.namesAll stmts) Eq
    s.journaled.sink.answers_eq (fun _ member => member) outer
    { level := m.level, output := [] } { level := other.level, output := [] } same rfl
  have start : Tracks s.sink other.output { level := other.level, output := [] } other :=
    ⟨rfl, rfl⟩
  have observes := Stmt.execAll_observes s other.output stmts outer start
  rcases journal' : Stmt.execAll s.journaled stmts outer { level := other.level, output := [] }
    with ⟨outcome', final'⟩
  rcases result : Stmt.execAll s stmts outer other with ⟨ended, other'⟩
  rw [journal', result] at observes
  rw [journal, journal'] at outcome outputs data
  obtain rfl : outcome' = .completed := outcome
  cases observes with
  | whole tracks' =>
      refine ⟨other', ⟨result, by rw [journal', outputs], outputs ▸ tracks'.accepted⟩, ?_⟩
      intro name member
      rw [tracks'.level, tracks.level]
      exact data name member
  | cut refused =>
      rw [← outputs, accepted] at refused
      cases refused

/-- If one list of statements and then another one complete, and no name occurs in both, then they
complete in the other order too, unless the sink minds the order, which no channel does. Each list
prints the same in both orders, and every name has the same datum at the end. The order in which the
level binds its names may differ. -/
theorem Stmt.independent_statements_commute
    : (∀ channel : Channel, channel.sink.IgnoresOrder)
      ∧ ∀ {σ : Type} (s : Setting σ) (first second : List Stmt) (outer : List Level)
          (m m₁ m₂ : Machine σ),
          s.sink.IgnoresOrder
          → (∀ name ∈ Stmt.namesAll first, name ∉ Stmt.namesAll second)
          → Stmt.execAll s first outer m = (.completed, m₁)
          → Stmt.execAll s second outer m₁ = (.completed, m₂)
          → ∃ printedFirst printedSecond m₁' m₂',
              Stmt.Completes s first outer m printedFirst m₁
              ∧ Stmt.Completes s second outer m₁ printedSecond m₂
              ∧ Stmt.Completes s second outer m printedSecond m₁'
              ∧ Stmt.Completes s first outer m₁' printedFirst m₂'
              ∧ ∀ name, m₂'.level.get? name = m₂.level.get? name := by
  refine ⟨Channel.ignoresOrder, ?_⟩
  intro σ s first second outer m m₁ m₂ ignores independent before after
  obtain ⟨printedFirst, firstCompletes⟩ := Stmt.exists_completes before
  obtain ⟨printedSecond, secondCompletes⟩ := Stmt.exists_completes after
  have accepted : (s.sink.feed m.output (printedFirst ++ printedSecond)).2 = none := by
    rw [Sink.feed_append_of_accepted firstCompletes.received, secondCompletes.received]
  obtain ⟨reached, final, acceptsSecond, acceptsFirst⟩ :=
    Sink.feed_split (ignores m.output _ _ accepted)
  -- Neither list touches the names of the other one, so each can be executed again in the place of
  -- the other.
  obtain ⟨m₁', secondAgain, sameSecond⟩ := secondCompletes.again m
    (fun name member => (firstCompletes.kept fun both => independent name both member).symm)
    acceptsSecond
  obtain rfl : m₁'.output = reached := by
    have received := secondAgain.received
    rw [acceptsSecond] at received
    exact (congrArg Prod.fst received).symm
  obtain ⟨m₂', firstAgain, sameFirst⟩ := firstCompletes.again m₁'
    (fun name member => secondAgain.kept (independent name member)) acceptsFirst
  refine ⟨printedFirst, printedSecond, m₁', m₂', firstCompletes, secondCompletes, secondAgain,
    firstAgain, fun name => ?_⟩
  by_cases inFirst : name ∈ Stmt.namesAll first
  · exact (sameFirst name inFirst).trans (secondCompletes.kept (independent name inFirst)).symm
  · by_cases inSecond : name ∈ Stmt.namesAll second
    · exact (firstAgain.kept inFirst).trans (sameSecond name inSecond)
    · calc m₂'.level.get? name
          _ = m₁'.level.get? name := firstAgain.kept inFirst
          _ = m.level.get? name := secondAgain.kept inSecond
          _ = m₁.level.get? name := (firstCompletes.kept inFirst).symm
          _ = m₂.level.get? name := (secondCompletes.kept inSecond).symm

end

/-- A loop that ends itself and prints on the way. -/
def Stmt.turning : Stmt :=
  .loop (.var "x") [.assign "x" (.boolean false), .print (.var "x")]

/-- A name that is declared and printed can change places with a loop that has nothing to do with
it, and only the order of the output changes. -/
theorem Stmt.independent_statements_commute_turning
    : let s : Setting Transcript :=
        { sink := (Channel.function (some 2)).sink, recording := false, limit := 3 }
      let first : List Stmt := [.declare "a" (.var "y"), .print (.var "a")]
      let final := (Stmt.execAll s [.turning] [] (Stmt.execAll s first [] .ready).2).2
      s.sink.IgnoresOrder
      ∧ (∀ name ∈ Stmt.namesAll first, name ∉ Stmt.namesAll [.turning])
      ∧ final.output.values = #[.boolean true, .boolean false]
      ∧ ∃ swapped : Machine Transcript,
          Stmt.execAll s first [] (Stmt.execAll s [.turning] [] .ready).2 = (.completed, swapped)
          ∧ swapped.output.values = #[.boolean false, .boolean true]
          ∧ ∀ name, swapped.level.get? name = final.level.get? name := by
  intro s first final
  obtain ⟨channels, commutes⟩ := Stmt.independent_statements_commute
  have ignores : s.sink.IgnoresOrder := channels (.function (some 2))
  have independent : ∀ name ∈ Stmt.namesAll first, name ∉ Stmt.namesAll [.turning] := by decide
  have before : Stmt.execAll s first [] .ready
      = (.completed, (Stmt.execAll s first [] .ready).2) := Prod.ext (by decide) rfl
  have after : Stmt.execAll s [.turning] [] (Stmt.execAll s first [] .ready).2
      = (.completed, final) := Prod.ext (by decide) rfl
  obtain ⟨_, _, m₁', m₂', _, _, secondAgain, firstAgain, same⟩ :=
    commutes s first [.turning] [] .ready _ _ ignores independent before after
  obtain rfl : m₁' = (Stmt.execAll s [.turning] [] .ready).2 := by rw [secondAgain.result]
  obtain rfl : m₂' = (Stmt.execAll s first [] (Stmt.execAll s [.turning] [] .ready).2).2 := by
    rw [firstAgain.result]
  exact ⟨ignores, independent, rfl, _, firstAgain.result, rfl, same⟩

end ScopedWhile
