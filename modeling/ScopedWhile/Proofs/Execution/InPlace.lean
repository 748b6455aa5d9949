import ScopedWhile.Execution.Store
import ScopedWhile.Proofs.Execution.Names
import ScopedWhile.Proofs.Scope.Lineage

/-!
Execution in place, on the scopes of a store. A block makes a child of the current scope in the
store, its statements write to that child and look names up along the links, and at its end the
scope takes over the child's values; a block that stops leaves its child behind. This is what
executing on the chain of a scope amounts to. Main statement: however it ends, an execution writes
to its own scope only, changes no link, unbinds no name, and adds the names that its statements
declare, in order.
-/

namespace ScopedWhile

variable {σ : Type}

/-- What an execution in place changes. -/
structure World (σ : Type) where
  store : Store
  output : σ
  history : Array Event := #[]

abbrev WorldResult (σ : Type) := Outcome × World σ

/-- Goes on from a result that completes. -/
def WorldResult.andThen (result : WorldResult σ) (next : World σ → WorldResult σ) : WorldResult σ :=
  match result with
  | (.completed, w) => next w
  | stopped => stopped

namespace World

/-- The world as an execution on the chain of a scope sees it. -/
def machine (w : World σ) (id : ScopeId) : Machine σ where
  level := w.store.level id
  output := w.output
  history := w.history

def record (w : World σ) (s : Setting σ) (event : Event) : World σ :=
  if s.recording then { w with history := w.history.push event } else w

def fail (w : World σ) (fault : Fault) : WorldResult σ :=
  (.halted (.fault fault), w)

/-- Binds a name of a scope to a value, where the event tells of the new chain. -/
def bind (w : World σ) (s : Setting σ) (id : ScopeId) (name : String) (v : Value)
    (event : Chain → Event) : WorldResult σ :=
  let w := { w with store := w.store.bind id name v.toDatum }
  (.completed, w.record s (event (w.store.chain id)))

def declare (s : Setting σ) (id : ScopeId) (name : String) (value : Expr) (w : World σ)
    : WorldResult σ :=
  if (w.store.level id).contains name then w.fail (.duplicateDeclaration name)
  else match (w.store.chain id).evaluate value with
    | .error fault => w.fail fault
    | .ok v => w.bind s id name v (.declared name)

def assign (s : Setting σ) (id : ScopeId) (name : String) (value : Expr) (w : World σ)
    : WorldResult σ :=
  if (w.store.level id).contains name then
    match (w.store.chain id).evaluate value with
    | .error fault => w.fail fault
    | .ok v => w.bind s id name v (.assigned name)
  else w.fail (.undeclaredAssignment name)

def test (id : ScopeId) (kind : StmtKind) (condition : Expr) (w : World σ) : Except Fault Bool :=
  (w.store.chain id).test kind condition

def print (s : Setting σ) (id : ScopeId) (value : Expr) (w : World σ) : WorldResult σ :=
  match (w.store.chain id).evaluate value with
  | .error fault => w.fail fault
  | .ok v => match s.sink.emit v.toDatum w.output with
    | (output, none) => (.completed, { w with output })
    | (output, some cause) => (.halted cause, { w with output })

/-- Adds a child of a scope to the store. -/
def withChild (w : World σ) (id : ScopeId) : World σ :=
  { w with store := (w.store.child id).1 }

/-- Runs a block on a new child of a scope and merges that back. -/
def block (s : Setting σ) (id : ScopeId) (body : ScopeId → World σ → WorldResult σ) (w : World σ)
    : WorldResult σ :=
  let inner := (w.store.child id).2
  WorldResult.andThen (body inner (w.withChild id)) fun w =>
    let w := { w with store := w.store.mergeBack id inner }
    (.completed, w.record s (.merged (w.store.chain id)))

def iterate (test : World σ → Except Fault Bool) (body : World σ → WorldResult σ)
    : Nat → World σ → WorldResult σ
  | 0, w => (.unfinished, w)
  | rounds + 1, w => match test w with
    | .error fault => w.fail fault
    | .ok false => (.completed, w)
    | .ok true => WorldResult.andThen (body w) (iterate test body rounds)

end World

mutual

/-- Executes a statement on a scope of the store. -/
def Stmt.execIn (s : Setting σ) : Stmt → ScopeId → World σ → WorldResult σ
  | .declare name value, id, w =>
      (w.record s (.entered (.declare name value) (w.store.chain id))).declare s id name value
  | .assign name value, id, w =>
      (w.record s (.entered (.assign name value) (w.store.chain id))).assign s id name value
  | .branch condition whenTrue whenFalse, id, w =>
      let w := w.record s (.entered (.branch condition whenTrue whenFalse) (w.store.chain id))
      match w.test id .branch condition with
      | .error fault => w.fail fault
      | .ok true => w.block s id (Stmt.execAllIn s whenTrue)
      | .ok false => w.block s id (Stmt.execAllIn s whenFalse)
  | .loop condition body, id, w =>
      let w := w.record s (.entered (.loop condition body) (w.store.chain id))
      World.iterate (World.test id .loop condition) (World.block s id (Stmt.execAllIn s body))
        s.limit w
  | .print value, id, w =>
      (w.record s (.entered (.print value) (w.store.chain id))).print s id value

def Stmt.execAllIn (s : Setting σ) : List Stmt → ScopeId → World σ → WorldResult σ
  | [], _, w => (.completed, w)
  | stmt :: rest, id, w => WorldResult.andThen (stmt.execIn s id w) (Stmt.execAllIn s rest id)

end

def Node.execIn (s : Setting σ) : Node → ScopeId → World σ → WorldResult σ
  | .stmt statement, id, w => statement.execIn s id w
  | .expr e, _, w => w.fail (.unsupportedStatement e.kind.tag)

def Node.execAllIn (s : Setting σ) : List Node → ScopeId → World σ → WorldResult σ
  | [], _, w => (.completed, w)
  | node :: rest, id, w => WorldResult.andThen (node.execIn s id w) (Node.execAllIn s rest id)

-----------------------------------------------------------------------------------------
-- In place and on the chain
-----------------------------------------------------------------------------------------

/-- A scope of a store in which parents are older, with the levels around it. -/
structure World.Has (w : World σ) (id : ScopeId) (outer : List Level) : Prop where
  older : w.store.ParentsOlder
  present : id < w.store.scopes.size
  outer : (w.store.chain id).outer = outer

/-- An execution in place that started in a world has written to its scope only and ends as an
execution on the chain does. -/
structure Mirrors (id : ScopeId) (w : World σ) (inPlace : WorldResult σ) (onChain : Result σ)
    : Prop where
  outcome : inPlace.1 = onChain.1
  machine : inPlace.2.machine id = onChain.2
  writes : w.store.WritesOnly id inPlace.2.store

section

variable {s : Setting σ} {id : ScopeId} {outer : List Level} {w : World σ}

namespace World

/-- Recording leaves the store alone. -/
@[simp]
theorem store_record (w : World σ) (s : Setting σ) (event : Event)
    : (w.record s event).store = w.store := by
  cases held : s.recording <;> simp [record, held]

/-- The machine seen from a scope records what the world does. -/
theorem machine_record (w : World σ) (s : Setting σ) (event : Event) (id : ScopeId)
    : (w.record s event).machine id = (w.machine id).record s event := by
  cases held : s.recording <;> simp [record, Machine.record, machine, held]

@[simp]
theorem level_machine (w : World σ) (id : ScopeId)
    : (w.machine id).level = w.store.level id :=
  rfl

@[simp]
theorem output_machine (w : World σ) (id : ScopeId)
    : (w.machine id).output = w.output :=
  rfl

/-- The chain of a scope is the level of its machine on the levels around it. -/
theorem Has.chain (has : w.Has id outer)
    : w.store.chain id = (w.machine id).chain outer := by
  rw [← has.outer]
  rfl

/-- Writes to the scope alone leave the levels around it as they were. -/
theorem Has.after (has : w.Has id outer) {w' : World σ}
    (writes : w.store.WritesOnly id w'.store)
    : w'.Has id outer where
  older := writes.older
  present := writes.present has.present
  outer := (writes.outer has.older has.present).trans has.outer

/-- A test in a world is the test on the chain of its scope. -/
theorem Has.test (has : w.Has id outer) (kind : StmtKind) (condition : Expr)
    : w.test id kind condition = (w.machine id).test outer kind condition := by
  rw [World.test, has.chain]
  rfl

theorem Has.recorded (has : w.Has id outer) (s : Setting σ) (event : Event)
    : w.store.WritesOnly id (w.record s event).store := by
  rw [store_record]
  exact .refl id has.older

theorem Has.record (has : w.Has id outer) (s : Setting σ) (event : Event)
    : (w.record s event).Has id outer :=
  has.after (has.recorded s event)

/-- A child that was just made stands on the scope it was made from. -/
theorem Has.child (has : w.Has id outer)
    : (w.withChild id).Has (w.store.child id).2 (w.store.level id :: outer) where
  older := has.older.createIn _ has.present
  present := Store.present_child w.store id
  outer := by
    rw [withChild, Store.chain_child has.older has.present, has.chain]
    rfl

/-- Seen from a child that was just made, the machine is that of its parent. -/
theorem machine_child (w : World σ) (id : ScopeId)
    : (w.withChild id).machine (w.store.child id).2 = w.machine id := by
  have level : (w.withChild id).store.level (w.store.child id).2 = w.store.level id :=
    Store.level_child w.store id
  simp only [machine, level]
  rfl

end World

namespace Mirrors

theorem same (has : w.Has id outer) (outcome : Outcome)
    : Mirrors id w (outcome, w) (outcome, w.machine id) :=
  ⟨rfl, rfl, .refl id has.older⟩

/-- What is mirrored after writes to the scope alone is mirrored from before them. -/
theorem later {w' : World σ} {inPlace : WorldResult σ} {onChain : Result σ}
    (writes : w.store.WritesOnly id w'.store) (mirrors : Mirrors id w' inPlace onChain)
    : Mirrors id w inPlace onChain :=
  ⟨mirrors.outcome, mirrors.machine, writes.trans mirrors.writes⟩

/-- Two parts that are mirrored are mirrored one after the other. -/
theorem andThen {first : WorldResult σ} {onChain : Result σ}
    {nextIn : World σ → WorldResult σ} {next : Machine σ → Result σ} (has : w.Has id outer)
    (mirrors : Mirrors id w first onChain)
    (goesOn : ∀ {w'}, w'.Has id outer → Mirrors id w' (nextIn w') (next (w'.machine id)))
    : Mirrors id w (first.andThen nextIn) (onChain.andThen next) := by
  obtain ⟨outcome, w'⟩ := first
  obtain ⟨outcome', m'⟩ := onChain
  obtain ⟨rfl, rfl, writes⟩ := mirrors
  cases outcome with
  | completed => exact later writes (goesOn (has.after writes))
  | halted cause => exact ⟨rfl, rfl, writes⟩
  | unfinished => exact ⟨rfl, rfl, writes⟩

/-- The scope takes a new level, and an event tells of its chain. -/
theorem write (has : w.Has id outer) (level : Level) (event : Chain → Event)
    : let w' := { w with store := w.store.setLevel id level }
      let m' := { w.machine id with level }
      Mirrors id w (.completed, w'.record s (event (w'.store.chain id)))
        (.completed, m'.record s (event (m'.chain outer))) := by
  intro w' m'
  have writes : w.store.WritesOnly id w'.store := .setLevel has.older level
  have machine : w'.machine id = m' := by
    simp only [m', w', World.machine, Store.level_setLevel has.present]
  have chain := (has.after writes).chain
  refine ⟨rfl, ?_, writes.trans ((has.after writes).recorded s _)⟩
  rw [World.machine_record, chain, machine]

/-- Writing a value to a scope sets it in the level of its machine. -/
theorem bind (has : w.Has id outer) (name : String) (v : Value) (event : Chain → Event)
    : let m' := { w.machine id with level := (w.machine id).level.set name v.toDatum }
      Mirrors id w (w.bind s id name v event)
        (.completed, m'.record s (event (m'.chain outer))) :=
  write has _ event

/-- A declaration in place mirrors the one on the chain. -/
theorem declare (has : w.Has id outer) (name : String) (value : Expr)
    : Mirrors id w (w.declare s id name value) ((w.machine id).declare s outer name value) := by
  simp only [World.declare, Machine.declare, ← World.level_machine, has.chain]
  by_cases bound : (w.machine id).level.contains name
  · simp only [if_pos bound]
    exact same has _
  · simp only [if_neg bound]
    cases ((w.machine id).chain outer).evaluate value with
    | error fault => exact same has _
    | ok v => exact bind has name v (.declared name)

/-- An assignment in place mirrors the one on the chain. -/
theorem assign (has : w.Has id outer) (name : String) (value : Expr)
    : Mirrors id w (w.assign s id name value) ((w.machine id).assign s outer name value) := by
  simp only [World.assign, Machine.assign, ← World.level_machine, has.chain]
  by_cases bound : (w.machine id).level.contains name
  · simp only [if_pos bound]
    cases ((w.machine id).chain outer).evaluate value with
    | error fault => exact same has _
    | ok v => exact bind has name v (.assigned name)
  · simp only [if_neg bound]
    exact same has _

/-- A print in place mirrors the one on the chain, also if the sink refuses the value. -/
theorem print (has : w.Has id outer) (value : Expr)
    : Mirrors id w (w.print s id value) ((w.machine id).print s outer value) := by
  simp only [World.print, Machine.print, World.output_machine, has.chain]
  cases ((w.machine id).chain outer).evaluate value with
  | error fault => exact same has _
  | ok v =>
      rcases emitted : s.sink.emit v.toDatum w.output with ⟨output, refusal⟩
      simp only [emitted]
      cases refusal <;> exact ⟨rfl, rfl, .refl id has.older⟩

/-- The block runs on a new child, which no scope from before reaches, and its merge writes to the
scope that it was made from. -/
theorem block {bodyIn : ScopeId → World σ → WorldResult σ}
    {body : List Level → Machine σ → Result σ} (has : w.Has id outer)
    (mirrors : ∀ {w : World σ} {id outer}, w.Has id outer
      → Mirrors id w (bodyIn id w) (body outer (w.machine id)))
    : Mirrors id w (w.block s id bodyIn) ((w.machine id).block s outer body) := by
  rcases ran : bodyIn (w.store.child id).2 (w.withChild id) with ⟨outcome, w'⟩
  rcases result : body (w.store.level id :: outer) (w.machine id) with ⟨outcome', inner⟩
  have inside := mirrors has.child
  rw [World.machine_child, ran, result] at inside
  obtain ⟨rfl, rfl, writes⟩ := inside
  have others : w.store.WritesOnly id w'.store := writes.of_child has.present
  have level : (w.machine id).level = (w'.machine id).level := by
    simp only [World.level_machine, Store.level]
    rw [← writes.scope?_of_child has.present]
  simp only [World.block, ran]
  cases outcome with
  | completed =>
      rw [Machine.block_of_completed result, level]
      exact later others (write (has.after others) _ .merged)
  | halted cause =>
      rw [Machine.block_of_stopped result (by simp), level]
      exact ⟨rfl, rfl, others⟩
  | unfinished =>
      rw [Machine.block_of_stopped result (by simp), level]
      exact ⟨rfl, rfl, others⟩

/-- A loop is mirrored if its test and its body are, by induction on the rounds. -/
theorem iterate {testIn : World σ → Except Fault Bool} {test : Machine σ → Except Fault Bool}
    {bodyIn : World σ → WorldResult σ} {body : Machine σ → Result σ} (has : w.Has id outer)
    (agree : ∀ {w : World σ}, w.Has id outer → testIn w = test (w.machine id))
    (mirrors : ∀ {w : World σ}, w.Has id outer → Mirrors id w (bodyIn w) (body (w.machine id)))
    (rounds : Nat)
    : Mirrors id w (World.iterate testIn bodyIn rounds w)
        (Machine.iterate test body rounds (w.machine id)) := by
  induction rounds generalizing w with
  | zero => exact same has _
  | succ rounds ih =>
      have agreed := agree has
      cases tested : test (w.machine id) with
      | error fault =>
          simp only [World.iterate, Machine.iterate, agreed, tested]
          exact same has _
      | ok holds =>
          cases holds with
          | false =>
              simp only [World.iterate, Machine.iterate, agreed, tested]
              exact same has _
          | true =>
              rw [Machine.iterate_of_true tested]
              simp only [World.iterate, agreed, tested]
              exact andThen has (mirrors has) ih

end Mirrors

end

mutual

/-- A statement executed in place mirrors its execution on the chain of its scope. -/
theorem Stmt.execIn_mirrors (s : Setting σ) (stmt : Stmt) {id : ScopeId} {outer : List Level}
    {w : World σ} (has : w.Has id outer)
    : Mirrors id w (stmt.execIn s id w) (stmt.exec s outer (w.machine id)) := by
  cases stmt with
  | declare name value =>
      simp only [execIn, exec, ← has.chain, ← World.machine_record]
      exact .later (has.recorded s _) (.declare (has.record s _) name value)
  | assign name value =>
      simp only [execIn, exec, ← has.chain, ← World.machine_record]
      exact .later (has.recorded s _) (.assign (has.record s _) name value)
  | branch condition whenTrue whenFalse =>
      simp only [execIn, exec, ← has.chain, ← World.machine_record]
      have recorded :=
        has.recorded s (.entered (.branch condition whenTrue whenFalse) (w.store.chain id))
      refine .later recorded ?_
      replace has := has.after recorded
      generalize w.record s _ = w at has ⊢
      simp only [has.test]
      rcases (w.machine id).test outer .branch condition with fault | (_ | _)
      · exact .same has _
      · exact .block has (Stmt.execAllIn_mirrors s whenFalse)
      · exact .block has (Stmt.execAllIn_mirrors s whenTrue)
  | loop condition body =>
      simp only [execIn, exec, ← has.chain, ← World.machine_record]
      refine .later (has.recorded s _) (.iterate (has.record s _) ?_ ?_ s.limit)
      · intro w has
        exact has.test .loop condition
      · intro w has
        exact .block has (Stmt.execAllIn_mirrors s body)
  | print value =>
      simp only [execIn, exec, ← has.chain, ← World.machine_record]
      exact .later (has.recorded s _) (.print (has.record s _) value)
termination_by sizeOf stmt

/-- Statements executed in place mirror their execution on the chain, one after another. -/
theorem Stmt.execAllIn_mirrors (s : Setting σ) (stmts : List Stmt) {id : ScopeId}
    {outer : List Level} {w : World σ} (has : w.Has id outer)
    : Mirrors id w (Stmt.execAllIn s stmts id w) (Stmt.execAll s stmts outer (w.machine id)) := by
  cases stmts with
  | nil =>
      simp only [execAllIn, execAll]
      exact .same has _
  | cons stmt rest =>
      rw [Stmt.execAll_cons]
      simp only [execAllIn]
      exact .andThen has (stmt.execIn_mirrors s has) (Stmt.execAllIn_mirrors s rest)
termination_by sizeOf stmts

end

/-- A node executed in place mirrors its execution on the chain of its scope. -/
theorem Node.execIn_mirrors (s : Setting σ) (node : Node) {id : ScopeId} {outer : List Level}
    {w : World σ} (has : w.Has id outer)
    : Mirrors id w (node.execIn s id w) (node.exec s outer (w.machine id)) := by
  cases node with
  | stmt statement => exact statement.execIn_mirrors s has
  | expr e => exact .same has _

/-- What nodes do on the chain of a scope, they do in place, where they write to that scope only. -/
theorem Node.execAllIn_mirrors (s : Setting σ) (nodes : List Node) {id : ScopeId}
    {outer : List Level} {w : World σ} (has : w.Has id outer)
    : Mirrors id w (Node.execAllIn s nodes id w) (Node.execAll s nodes outer (w.machine id)) := by
  induction nodes generalizing w with
  | nil => exact .same has _
  | cons node rest ih => exact .andThen has (node.execIn_mirrors s has) ih

/-- However an execution ends, it leaves every other scope and all links as they were and keeps the
names of its own scope, which takes on those declared before the first node that does not complete.
In place it does the same to the scopes that were there. -/
theorem Store.execution_writes_only_its_scope (s : Setting σ) {store : Store}
    (older : store.ParentsOlder) {id : ScopeId} (present : id < store.scopes.size)
    (nodes : List Node) (output : σ)
    : let result := store.exec s id nodes output
      let after := result.2.1
      let inPlace := Node.execAllIn s nodes id { store, output }
      (∀ other, other ≠ id → after.scope? other = store.scope? other)
      ∧ (∀ other, after.parent? other = store.parent? other)
      ∧ (∀ name ∈ (store.level id).names, name ∈ (after.level id).names)
      ∧ (∃ ran rest,
          nodes = ran ++ rest
          ∧ (result.1 = .completed ↔ rest = [])
          ∧ (after.level id).names = (store.level id).names ++ Node.declaredNames ran)
      ∧ inPlace.1 = result.1
      ∧ inPlace.2.machine id = result.2.2
      ∧ ∀ other < store.scopes.size, inPlace.2.store.scope? other = after.scope? other := by
  intro result after inPlace
  have mirrors : Mirrors id { store, output } inPlace (result.1, result.2.2) :=
    Node.execAllIn_mirrors s nodes ⟨older, present, rfl⟩
  obtain ⟨ran, rest, split, ended, names⟩ := Node.names_of_execAll s nodes (store.chain id).outer
    { level := store.level id, output }
  have added : (after.level id).names = (store.level id).names ++ Node.declaredNames ran := by
    rw [show after.level id = result.2.2.level from level_setLevel present _]
    exact names
  refine ⟨?_, parent?_setLevel store id _, ?_, ⟨ran, rest, split, ended, added⟩,
    mirrors.outcome, mirrors.machine, ?_⟩
  · intro other differs
    exact (scope?_setLevel store id _ other).trans (if_neg differs.symm)
  · intro name bound
    rw [added]
    exact List.mem_append_left _ bound
  · intro other there
    have level : inPlace.2.store.level id = result.2.2.level :=
      congrArg Machine.level mirrors.machine
    rw [mirrors.writes.scope?_eq present there, level]
    rfl

/-- A block writes to the names of its scope and then fails, where the scope holds its sibling and
hides a name of their parent; the child that the block ran on is left behind. -/
theorem Store.execution_writes_only_its_scope_failing
    : let s : Setting Transcript :=
        { sink := Channel.collector.sink, recording := false, limit := 3 }
      let root := Store.create {} (Level.empty.set "x" (.boolean true)) none
      let sibling := root.1.create (Level.empty.set "up" (.scope root.2)) (some root.2)
      let level := (Level.empty.set "x" (.boolean false)).set "held" (.scope sibling.2)
      let scope := sibling.1.create level (some root.2)
      let nodes : List Node :=
        [.stmt (.declare "y" (.boolean true)),
          .stmt (.branch (.var "y")
            [.assign "x" (.var "y"), .declare "z" (.var "x"), .print (.var "held")] []),
          .stmt (.declare "w" (.boolean true))]
      let result := scope.1.exec s scope.2 nodes {}
      let inPlace := Node.execAllIn s nodes scope.2 { store := scope.1, output := {} }
      (scope.1.ParentsOlder ∧ scope.2 < scope.1.scopes.size)
      ∧ result.1 = .halted (.fault (.undefinedVariable "held"))
      ∧ (result.2.1.level scope.2).names = ["x", "held", "y"]
      ∧ (∀ other, other ≠ scope.2 → result.2.1.scope? other = scope.1.scope? other)
      ∧ inPlace.2.store.scopes.size = scope.1.scopes.size + 1
      ∧ ∀ other < scope.1.scopes.size,
          inPlace.2.store.scope? other = result.2.1.scope? other := by
  intro s root sibling level scope nodes
  have rooted : root.1.ParentsOlder := ParentsOlder.empty.create _ (by simp)
  have paired : sibling.1.ParentsOlder := rooted.createIn _ (by decide)
  have older : scope.1.ParentsOlder := paired.createIn _ (by decide)
  have present : scope.2 < scope.1.scopes.size := by decide
  obtain ⟨others, _, _, _, _, _, same⟩ :=
    execution_writes_only_its_scope s older present nodes ({} : Transcript)
  refine ⟨⟨older, present⟩, ?_, ?_, others, ?_, same⟩
  · decide +kernel
  · decide +kernel
  · decide +kernel

end ScopedWhile
