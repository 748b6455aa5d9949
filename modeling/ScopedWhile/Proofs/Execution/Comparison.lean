import ScopedWhile.Proofs.Execution.LexicalScope
import ScopedWhile.Proofs.Language.Renaming

/-!
Comparing two executions. The second one executes the same statements under other names, on other
levels and with another output. If the names in use have the same data on both sides and the sink
answers both sides alike, then both take the same course and leave the same data. The comparison
says nothing of names that are not in use: these may be bound on one side only.
-/

namespace ScopedWhile

def Fault.rename (r : String → String) : Fault → Fault
  | .undefinedVariable name => .undefinedVariable (r name)
  | .duplicateDeclaration name => .duplicateDeclaration (r name)
  | .undeclaredAssignment name => .undeclaredAssignment (r name)
  | fault => fault

/-- What a sink says of its own accord concerns no name. -/
def Halt.rename (r : String → String) : Halt → Halt
  | .fault cause => .fault (cause.rename r)
  | .refused reason => .refused reason

def Outcome.rename (r : String → String) : Outcome → Outcome
  | .halted cause => .halted (cause.rename r)
  | .completed => .completed
  | .unfinished => .unfinished

/-- Faults that do not concern the scope name no variable. -/
theorem Fault.rename_of_concernsScope {fault : Fault} (concerns : fault.concernsScope = false)
    (r : String → String)
    : fault.rename r = fault := by
  cases fault with
  | undefinedVariable _ | duplicateDeclaration _ | undeclaredAssignment _ => cases concerns
  | operandType _ _ | divisionByZero | nonBooleanTest _ | arithmetic _ => rfl
  | unformattable _ | unsupportedExpression _ | unsupportedStatement _ => rfl

theorem Outcome.rename_id (outcome : Outcome)
    : outcome.rename id = outcome := by
  cases outcome with
  | completed | unfinished => rfl
  | halted cause =>
      cases cause with
      | refused reason => rfl
      | fault fault => cases fault <;> rfl

-----------------------------------------------------------------------------------------
-- Renamed expressions
-----------------------------------------------------------------------------------------

/-- What an operator gives or complains of has no names in it. -/
theorem Operator.rename_apply (op : Operator) (a b : Value) (r : String → String)
    : (op.apply a b).mapError (Fault.rename r) = op.apply a b := by
  cases result : op.apply a b with
  | ok v => rfl
  | error fault =>
      exact congrArg Except.error (Fault.rename_of_concernsScope (concernsScope_of_apply result) r)

/-- An expression with other names has the same value where these stand for the same values. -/
theorem Chain.evaluate_rename {r : String → String} {chain chain' : Chain} {e : Expr}
    (same : ∀ name ∈ e.names, chain'.lookup? (r name) = chain.lookup? name)
    : chain'.evaluate (e.rename r) = (chain.evaluate e).mapError (Fault.rename r) := by
  induction e with
  | boolean b | number x => rfl
  | var name =>
      have found : chain'.lookup? (r name) = chain.lookup? name := same name List.mem_cons_self
      change chain'.lookup (r name) = (chain.lookup name).mapError (Fault.rename r)
      rw [lookup, lookup, found]
      cases chain.lookup? name <;> rfl
  | binary op left right first second =>
      have left' := first fun name member => same name (List.mem_append_left _ member)
      have right' := second fun name member => same name (List.mem_append_right _ member)
      simp only [evaluate] at left' right' ⊢
      simp only [Expr.rename, Expr.eval, left', right']
      cases left.eval chain.lookup with
      | error fault => rfl
      | ok a =>
          cases right.eval chain.lookup with
          | error fault => rfl
          | ok b => exact (op.rename_apply a b r).symm

/-- A test with other names ends the same where these stand for the same values. -/
theorem Chain.test_rename {r : String → String} {chain chain' : Chain} {condition : Expr}
    (same : ∀ name ∈ condition.names, chain'.lookup? (r name) = chain.lookup? name)
    (kind : StmtKind)
    : chain'.test kind (condition.rename r)
      = (chain.test kind condition).mapError (Fault.rename r) := by
  simp only [test, evaluate_rename same]
  cases chain.evaluate condition with
  | error fault => rfl
  | ok v => cases v <;> rfl

-----------------------------------------------------------------------------------------
-- What is compared
-----------------------------------------------------------------------------------------

variable {σ : Type}

/-- The sink makes no difference between outputs that are alike: it answers a value in the same way,
and the outputs are alike again. -/
def Sink.Answers (sink : Sink σ) (alike : σ → σ → Prop) : Prop :=
  ∀ (v : Value) {o o' : σ},
    alike o o'
    → alike (sink.emit v.toDatum o).1 (sink.emit v.toDatum o').1
      ∧ (sink.emit v.toDatum o').2 = (sink.emit v.toDatum o).2

theorem Sink.answers_eq (sink : Sink σ)
    : sink.Answers Eq := by
  rintro v o _ rfl
  exact ⟨rfl, rfl⟩

/-- A way to compare two executions with the same sink: by the names in use, by what the second
execution calls them, by the names bound on either side at the start, and by outputs. -/
structure Comparison (sink : Sink σ) where
  known : String → Prop
  image : String → String
  injective {a b : String} : known a → known b → image a = image b → a = b
  start : List String
  start' : List String
  alike : σ → σ → Prop
  answers : sink.Answers alike

namespace Comparison

/-- The names in use have the same data, and both levels have grown by the same names. -/
structure Levels {sink : Sink σ} (k : Comparison sink) (level level' : Level) : Prop where
  data {name : String} : k.known name → level'.get? (k.image name) = level.get? name
  names
    : ∃ added, level.names = k.start ++ added ∧ level'.names = k.start' ++ added.map k.image

/-- The names in use are found with the same data. -/
def Outer {sink : Sink σ} (k : Comparison sink) (outer outer' : List Level) : Prop :=
  ∀ name,
    k.known name
    → outer'.findSome? (fun level => level.get? (k.image name))
      = outer.findSome? (fun level => level.get? name)

structure Machines {sink : Sink σ} (k : Comparison sink) (m m' : Machine σ) : Prop where
  level : k.Levels m.level m'.level
  output : k.alike m.output m'.output

/-- Both end alike, up to names; only what the sink itself says, which is then the last thing that
happened to the output, is the same word for word. -/
inductive Outcomes {sink : Sink σ} (k : Comparison sink) (output : σ)
    : Outcome → Outcome → Prop where
  | renamed (outcome : Outcome) : Outcomes k output outcome (outcome.rename k.image)
  | refused {v : Value} {before : σ} {cause : Halt}
    (refuses : sink.emit v.toDatum before = (output, some cause))
    : Outcomes k output (.halted cause) (.halted cause)

structure Results {sink : Sink σ} (k : Comparison sink) (result result' : Result σ) : Prop where
  outcome : k.Outcomes result.2.output result.1 result'.1
  machine : k.Machines result.2 result'.2

-----------------------------------------------------------------------------------------
-- Levels
-----------------------------------------------------------------------------------------

section

variable {sink : Sink σ} {k : Comparison sink} {level level' inner inner' : Level}
  {outer outer' : List Level} {name : String}

/-- Known names are bound at the same time as their images. -/
theorem Levels.bound_iff (levels : k.Levels level level') (known : k.known name)
    : k.image name ∈ level'.names ↔ name ∈ level.names := by
  rw [← Level.get?_isSome_iff, ← Level.get?_isSome_iff, levels.data known]

/-- Known names have different images. -/
theorem image_eq_iff {a b : String} (ha : k.known a) (hb : k.known b)
    : k.image a = k.image b ↔ a = b :=
  ⟨k.injective ha hb, congrArg k.image⟩

/-- Writing to a known name and to its image keeps levels related. -/
theorem Levels.set (levels : k.Levels level level') (known : k.known name) (datum : Datum)
    : k.Levels (level.set name datum) (level'.set (k.image name) datum) where
  data {other} knownOther := by
    simp only [Level.get?_set, image_eq_iff knownOther known, levels.data knownOther]
  names := by
    obtain ⟨added, names, names'⟩ := levels.names
    by_cases bound : name ∈ level.names
    · refine ⟨added, ?_, ?_⟩
      · rw [Level.names_set_of_mem bound, names]
      · rw [Level.names_set_of_mem ((levels.bound_iff known).mpr bound), names']
    · have fresh : k.image name ∉ level'.names := fun taken =>
        bound ((levels.bound_iff known).mp taken)
      refine ⟨added ++ [name], ?_, ?_⟩
      · rw [Level.names_set_of_notMem bound, names, List.append_assoc]
      · rw [Level.names_set_of_notMem fresh, names', List.append_assoc, List.map_append]
        rfl

/-- Merging related blocks back keeps levels related. -/
theorem Levels.mergeBack (levels : k.Levels level level') (inside : k.Levels inner inner')
    : k.Levels (level.mergeBack inner) (level'.mergeBack inner') where
  data known := by
    simp only [Level.get?_mergeBack, levels.data known, inside.data known]
  names := by
    simpa only [Level.names_mergeBack] using levels.names

/-- A block adds a related level on both sides. -/
theorem Outer.child (around : k.Outer outer outer') (levels : k.Levels level level')
    : k.Outer (level :: outer) (level' :: outer') := by
  intro name known
  simp only [List.findSome?_cons, levels.data known, around name known]

/-- A known name and its image stand for the same value, found at the same level. -/
theorem Levels.lookup? (levels : k.Levels level level') (around : k.Outer outer outer')
    (known : k.known name)
    : Chain.lookup? { level := level', outer := outer' } (k.image name)
      = Chain.lookup? { level, outer } name := by
  have child := around.child levels name known
  simp only [Chain.lookup?, Chain.nearest?, Chain.levels, child]

end

-----------------------------------------------------------------------------------------
-- Results that are composed
-----------------------------------------------------------------------------------------

section

variable {s : Setting σ} {k : Comparison s.sink} {m m' : Machine σ} {outer outer' : List Level}

theorem Outcomes.completed {output : σ} {outcome : Outcome}
    (outcomes : k.Outcomes output .completed outcome)
    : outcome = .completed := by
  cases outcomes
  rfl

/-- Both executions stop, or none does. -/
theorem Outcomes.stopped {output : σ} {outcome outcome' : Outcome}
    (outcomes : k.Outcomes output outcome outcome') (stops : outcome ≠ .completed)
    : outcome' ≠ .completed := by
  cases outcomes with
  | refused => nofun
  | renamed =>
      cases outcome with
      | completed => exact absurd rfl stops
      | halted cause => nofun
      | unfinished => nofun

theorem Machines.completed (machines : k.Machines m m')
    : k.Results (.completed, m) (.completed, m') :=
  ⟨.renamed .completed, machines⟩

/-- The same fault under other names is a related result. -/
theorem Machines.fail (machines : k.Machines m m') (fault : Fault)
    : k.Results (m.fail fault) (m'.fail (fault.rename k.image)) :=
  ⟨.renamed (.halted (.fault fault)), machines⟩

/-- Recording is not compared. -/
theorem Machines.record (machines : k.Machines m m') (event event' : Event)
    : k.Machines (m.record s event) (m'.record s event') := by
  constructor
  · simpa only [Machine.level_record] using machines.level
  · simpa only [Machine.output_record] using machines.output

theorem Machines.withLevel (machines : k.Machines m m') {level level' : Level}
    (levels : k.Levels level level')
    : k.Machines { m with level } { m' with level := level' } :=
  ⟨levels, machines.output⟩

/-- A known expression ends on both sides alike, under the names of each. -/
theorem Machines.evaluate (machines : k.Machines m m') (around : k.Outer outer outer') {e : Expr}
    (known : ∀ name ∈ e.names, k.known name)
    : (m'.chain outer').evaluate (e.rename k.image)
      = ((m.chain outer).evaluate e).mapError (Fault.rename k.image) :=
  Chain.evaluate_rename fun name member => machines.level.lookup? around (known name member)

/-- A known test ends on both sides alike. -/
theorem Machines.test (machines : k.Machines m m') (around : k.Outer outer outer')
    {condition : Expr} (known : ∀ name ∈ condition.names, k.known name) (kind : StmtKind)
    : m'.test outer' kind (condition.rename k.image)
      = (m.test outer kind condition).mapError (Fault.rename k.image) :=
  Chain.test_rename
    (fun name member => machines.level.lookup? around (known name member)) kind

/-- Going on from results that correspond: where one side has stopped, so has the other. -/
theorem Results.andThen {first first' : Result σ} {next next' : Machine σ → Result σ}
    (results : k.Results first first')
    (continues : ∀ {m m'}, k.Machines m m' → k.Results (next m) (next' m'))
    : k.Results (Result.andThen first next) (Result.andThen first' next') := by
  obtain ⟨outcome, m⟩ := first
  obtain ⟨outcome', m'⟩ := first'
  obtain ⟨outcomes, machines⟩ := results
  cases outcomes with
  | refused refuses => exact ⟨.refused refuses, machines⟩
  | renamed =>
      cases outcome with
      | completed => exact continues machines
      | halted cause => exact ⟨.renamed (.halted cause), machines⟩
      | unfinished => exact ⟨.renamed .unfinished, machines⟩

-----------------------------------------------------------------------------------------
-- One construct at a time
-----------------------------------------------------------------------------------------

/-- Binding a name to the value of an expression, once the name is found to be as it should. -/
theorem Machines.bind (machines : k.Machines m m') (around : k.Outer outer outer') {name : String}
    (known : k.known name) {value : Expr} (knownValue : ∀ name ∈ value.names, k.known name)
    (event event' : Level → Event)
    : k.Results
        (match (m.chain outer).evaluate value with
          | .error fault => m.fail fault
          | .ok v =>
              (.completed,
                { m with level := m.level.set name v.toDatum }.record s
                  (event (m.level.set name v.toDatum))))
        (match (m'.chain outer').evaluate (value.rename k.image) with
          | .error fault => m'.fail fault
          | .ok v =>
              (.completed,
                { m' with level := m'.level.set (k.image name) v.toDatum }.record s
                  (event' (m'.level.set (k.image name) v.toDatum)))) := by
  simp only [machines.evaluate around knownValue]
  cases (m.chain outer).evaluate value with
  | error fault => exact machines.fail fault
  | ok v =>
      have levels := machines.level.set known v.toDatum
      exact ((machines.withLevel levels).record _ _).completed

/-- Related machines declare alike, since a name is bound exactly if its image is. -/
theorem Machines.declare (machines : k.Machines m m') (around : k.Outer outer outer')
    {name : String} (known : k.known name) {value : Expr}
    (knownValue : ∀ name ∈ value.names, k.known name)
    : k.Results (m.declare s outer name value)
        (m'.declare s outer' (k.image name) (value.rename k.image)) := by
  simp only [Machine.declare, Level.contains_iff, machines.level.bound_iff known]
  split
  · exact machines.fail (.duplicateDeclaration name)
  · exact machines.bind around known knownValue
      (fun level => .declared name { level, outer })
      (fun level => .declared (k.image name) { level, outer := outer' })

/-- Related machines assign alike, since a name is bound exactly if its image is. -/
theorem Machines.assign (machines : k.Machines m m') (around : k.Outer outer outer')
    {name : String} (known : k.known name) {value : Expr}
    (knownValue : ∀ name ∈ value.names, k.known name)
    : k.Results (m.assign s outer name value)
        (m'.assign s outer' (k.image name) (value.rename k.image)) := by
  simp only [Machine.assign, Level.contains_iff, machines.level.bound_iff known]
  split
  · exact machines.bind around known knownValue
      (fun level => .assigned name { level, outer })
      (fun level => .assigned (k.image name) { level, outer := outer' })
  · exact machines.fail (.undeclaredAssignment name)

/-- Related machines print alike, since sinks answer alike. -/
theorem Machines.print (machines : k.Machines m m') (around : k.Outer outer outer') {value : Expr}
    (known : ∀ name ∈ value.names, k.known name)
    : k.Results (m.print s outer value) (m'.print s outer' (value.rename k.image)) := by
  simp only [Machine.print, machines.evaluate around known]
  cases (m.chain outer).evaluate value with
  | error fault => exact machines.fail fault
  | ok v =>
      obtain ⟨outputs, refusals⟩ := k.answers v machines.output
      rcases emits : s.sink.emit v.toDatum m.output with ⟨output, refusal⟩
      rcases emits' : s.sink.emit v.toDatum m'.output with ⟨output', refusal'⟩
      rw [emits, emits'] at outputs refusals
      obtain rfl : refusal' = refusal := refusals
      have value' : Except.mapError (Fault.rename k.image) (.ok v) = .ok v := rfl
      simp only [value', emits, emits']
      cases refusal' with
      | none => exact Machines.completed ⟨machines.level, outputs⟩
      | some cause => exact ⟨.refused emits, machines.level, outputs⟩

/-- A block is compared on copies of the levels, which have the same data as these. -/
theorem Machines.block {body body' : List Level → Machine σ → Result σ}
    (bodies : ∀ {outer outer' m m'}, k.Outer outer outer' → k.Machines m m'
      → k.Results (body outer m) (body' outer' m'))
    (machines : k.Machines m m') (around : k.Outer outer outer')
    : k.Results (m.block s outer body) (m'.block s outer' body') := by
  have inside := bodies (around.child machines.level) machines
  rcases result : body (m.level :: outer) m with ⟨outcome, inner⟩
  rcases result' : body' (m'.level :: outer') m' with ⟨outcome', inner'⟩
  rw [result, result'] at inside
  obtain ⟨outcomes, inner⟩ := inside
  by_cases completes : outcome = .completed
  · subst completes
    obtain rfl : outcome' = .completed := outcomes.completed
    rw [Machine.block_of_completed result, Machine.block_of_completed result']
    have merged := machines.level.mergeBack inner.level
    exact ((inner.withLevel merged).record _ _).completed
  · rw [Machine.block_of_stopped result completes,
      Machine.block_of_stopped result' (outcomes.stopped completes)]
    exact ⟨outcomes, inner.withLevel machines.level⟩

/-- By induction on the rounds that are left: both sides make the same tests and the same rounds. -/
theorem Machines.iterate {test test' : Machine σ → Except Fault Bool}
    {body body' : Machine σ → Result σ}
    (tests : ∀ {m m'}, k.Machines m m' → test' m' = (test m).mapError (Fault.rename k.image))
    (bodies : ∀ {m m'}, k.Machines m m' → k.Results (body m) (body' m'))
    (rounds : Nat) (machines : k.Machines m m')
    : k.Results (Machine.iterate test body rounds m) (Machine.iterate test' body' rounds m') := by
  induction rounds generalizing m m' with
  | zero => exact ⟨.renamed .unfinished, machines⟩
  | succ rounds ih =>
      have same := tests machines
      cases gives : test m with
      | error fault =>
          have fails : test' m' = .error (fault.rename k.image) := by rw [same, gives]; rfl
          simp only [Machine.iterate, gives, fails]
          exact machines.fail fault
      | ok b =>
          rw [gives] at same
          cases b with
          | false =>
              have ends : test' m' = .ok false := same
              simp only [Machine.iterate, gives, ends]
              exact machines.completed
          | true =>
              rw [Machine.iterate_of_true gives, Machine.iterate_of_true same]
              exact (bodies machines).andThen ih

end

-----------------------------------------------------------------------------------------
-- Whole executions
-----------------------------------------------------------------------------------------

mutual

/-- Related machines execute a statement and its renamed copy alike, by induction over the
statement. -/
theorem exec {s : Setting σ} (k : Comparison s.sink) (stmt : Stmt)
    (known : ∀ name ∈ stmt.names, k.known name) {outer outer' : List Level} {m m' : Machine σ}
    (around : k.Outer outer outer') (machines : k.Machines m m')
    : k.Results (stmt.exec s outer m) ((stmt.rename k.image).exec s outer' m') := by
  cases stmt with
  | declare name value =>
      obtain ⟨knownName, knownValue⟩ := List.forall_mem_cons.mp known
      simp only [Stmt.rename, Stmt.exec]
      exact (machines.record _ _).declare around knownName knownValue
  | assign name value =>
      obtain ⟨knownName, knownValue⟩ := List.forall_mem_cons.mp known
      simp only [Stmt.rename, Stmt.exec]
      exact (machines.record _ _).assign around knownName knownValue
  | print value =>
      simp only [Stmt.rename, Stmt.exec]
      exact (machines.record _ _).print around known
  | branch condition whenTrue whenFalse =>
      obtain ⟨knownTest, knownBlocks⟩ := List.forall_mem_append.mp known
      obtain ⟨knownTrue, knownFalse⟩ := List.forall_mem_append.mp knownBlocks
      simp only [Stmt.rename, Stmt.exec]
      have entered := machines.record
        (.entered (.branch condition whenTrue whenFalse) (m.chain outer))
        (.entered ((Stmt.branch condition whenTrue whenFalse).rename k.image) (m'.chain outer'))
      simp only [Stmt.rename] at entered
      simp only [entered.test around knownTest .branch]
      cases Machine.test outer .branch condition _ with
      | error fault => exact entered.fail fault
      | ok b =>
          cases b with
          | true => exact Machines.block (k.execAll whenTrue knownTrue) entered around
          | false => exact Machines.block (k.execAll whenFalse knownFalse) entered around
  | loop condition body =>
      obtain ⟨knownTest, knownBody⟩ := List.forall_mem_append.mp known
      simp only [Stmt.rename, Stmt.exec]
      apply Machines.iterate _ _ s.limit (machines.record _ _)
      · exact fun machines => machines.test around knownTest .loop
      · exact fun machines => Machines.block (k.execAll body knownBody) machines around
termination_by sizeOf stmt

/-- Statements whose names are all in use take the same course on both sides. -/
theorem execAll {s : Setting σ} (k : Comparison s.sink) (stmts : List Stmt)
    (known : ∀ name ∈ Stmt.namesAll stmts, k.known name) {outer outer' : List Level}
    {m m' : Machine σ} (around : k.Outer outer outer') (machines : k.Machines m m')
    : k.Results (Stmt.execAll s stmts outer m)
        (Stmt.execAll s (Stmt.renameAll k.image stmts) outer' m') := by
  cases stmts with
  | nil => exact machines.completed
  | cons stmt rest =>
      obtain ⟨knownFirst, knownRest⟩ := List.forall_mem_append.mp known
      simp only [Stmt.renameAll, Stmt.execAll_cons]
      exact (k.exec stmt knownFirst around machines).andThen (k.execAll rest knownRest around)
termination_by sizeOf stmts

end

end Comparison

end ScopedWhile
