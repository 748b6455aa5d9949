import ScopedWhile.Scope.Store

/-!
Scopes of a store and their parents. A parent is there before its children and links never change,
so that parents are older; hence the way from a scope to its root has an end, and the levels around
a scope are those of its parent's chain. What is written to one scope changes no level around it.
-/

namespace ScopedWhile

namespace Store

/-- Every parent is older than its children. -/
def ParentsOlder (store : Store) : Prop :=
  ∀ id parent, store.parent? id = some parent → parent < id

/-- What outlasts writing to one scope and adding others: every other scope, and all links. -/
structure WritesOnly (id : ScopeId) (before after : Store) : Prop where
  grows : before.scopes.size ≤ after.scopes.size
  others {other : ScopeId}
    : other < before.scopes.size → other ≠ id → after.scope? other = before.scope? other
  parent : after.parent? id = before.parent? id
  older : after.ParentsOlder

-----------------------------------------------------------------------------------------
-- One operation
-----------------------------------------------------------------------------------------

/-- A scope that is there has a level and, unless it is a root, a parent. -/
theorem scope?_of_present {store : Store} {id : ScopeId} (present : id < store.scopes.size)
    : store.scope? id = some { level := store.level id, parent := store.parent? id } := by
  have found : store.scope? id = some store.scopes[id] := Array.getElem?_eq_getElem present
  rw [Store.level, parent?, found]
  rfl

/-- What has a parent is a scope. -/
theorem present_of_parent? {store : Store} {id parent : ScopeId}
    (linked : store.parent? id = some parent)
    : id < store.scopes.size := by
  obtain ⟨scope, found, _⟩ := Option.bind_eq_some_iff.mp linked
  exact (Array.getElem?_eq_some_iff.mp found).1

/-- Writing a level changes the one scope only. -/
theorem scope?_setLevel (store : Store) (id : ScopeId) (level : Level) (other : ScopeId)
    : (store.setLevel id level).scope? other
      = if id = other then (store.scope? other).map ({ · with level }) else store.scope? other := by
  simp only [scope?, setLevel, Array.getElem?_modify]

/-- Writing a level changes no link. -/
theorem parent?_setLevel (store : Store) (id : ScopeId) (level : Level) (other : ScopeId)
    : (store.setLevel id level).parent? other = store.parent? other := by
  simp only [parent?, scope?_setLevel]
  split
  · cases store.scope? other <;> rfl
  · rfl

theorem size_setLevel (store : Store) (id : ScopeId) (level : Level)
    : (store.setLevel id level).scopes.size = store.scopes.size :=
  Array.size_modify

/-- A level that was written is there. -/
theorem level_setLevel {store : Store} {id : ScopeId} (present : id < store.scopes.size)
    (level : Level)
    : (store.setLevel id level).level id = level := by
  rw [Store.level, scope?_setLevel, if_pos rfl, scope?_of_present present]
  rfl

/-- Writing a level leaves the others as they were. -/
theorem level_setLevel_of_ne {store : Store} {id other : ScopeId} (differs : other ≠ id)
    (level : Level)
    : (store.setLevel id level).level other = store.level other := by
  rw [Store.level, scope?_setLevel, if_neg differs.symm]
  rfl

/-- A new scope is added behind the others. -/
theorem scope?_create (store : Store) (level : Level) (parent : Option ScopeId) (other : ScopeId)
    : (store.create level parent).1.scope? other
      = if other = store.scopes.size then some { level, parent } else store.scope? other := by
  simp only [scope?, create, Array.getElem?_push]

theorem size_create (store : Store) (level : Level) (parent : Option ScopeId)
    : (store.create level parent).1.scopes.size = store.scopes.size + 1 :=
  Array.size_push _

/-- A new scope leaves the levels of the others as they were. -/
theorem level_create_of_present {store : Store} {id : ScopeId} (present : id < store.scopes.size)
    (level : Level) (parent : Option ScopeId)
    : (store.create level parent).1.level id = store.level id := by
  rw [Store.level, scope?_create, if_neg (Nat.ne_of_lt present)]
  rfl

/-- A child is a copy of the level of its parent, with a link to it. -/
theorem scope?_child (store : Store) (id : ScopeId)
    : (store.child id).1.scope? (store.child id).2
      = some { level := store.level id, parent := some id } :=
  (scope?_create store _ _ _).trans (if_pos rfl)

theorem level_child (store : Store) (id : ScopeId)
    : (store.child id).1.level (store.child id).2 = store.level id := by
  rw [Store.level, scope?_child]
  rfl

/-- Making a child leaves the levels of the others as they were. -/
theorem level_child_of_present {store : Store} {other : ScopeId}
    (present : other < store.scopes.size) (id : ScopeId)
    : (store.child id).1.level other = store.level other :=
  level_create_of_present present _ _

/-- A child that was made is there. -/
theorem present_child (store : Store) (id : ScopeId)
    : (store.child id).2 < (store.child id).1.scopes.size := by
  rw [child, size_create]
  exact Nat.lt_succ_self _

namespace ParentsOlder

variable {store : Store}

theorem empty
    : ParentsOlder {} := by
  intro id parent linked
  simp [parent?, scope?] at linked

/-- A new scope is younger than the parent it gets. -/
theorem create (older : store.ParentsOlder) (level : Level) {parent : Option ScopeId}
    (known : ∀ id, parent = some id → id < store.scopes.size)
    : (store.create level parent).1.ParentsOlder := by
  intro id other linked
  simp only [parent?, scope?_create] at linked
  split at linked
  · rename_i new
    rw [new]
    exact known other linked
  · exact older id other linked

theorem createIn (older : store.ParentsOlder) (level : Level) {parent : ScopeId}
    (present : parent < store.scopes.size)
    : (store.create level (some parent)).1.ParentsOlder := by
  apply older.create
  intro id linked
  cases linked
  exact present

/-- Writing a level keeps parents older than their children. -/
theorem setLevel (older : store.ParentsOlder) (id : ScopeId) (level : Level)
    : (store.setLevel id level).ParentsOlder := by
  intro other parent linked
  rw [parent?_setLevel] at linked
  exact older other parent linked

/-- The parent that a scope links to is older. -/
theorem lt_of_found (older : store.ParentsOlder) {id parent : ScopeId} {scope : Scope}
    (found : store.scope? id = some scope) (linked : scope.parent = some parent)
    : parent < id := by
  apply older id parent
  rw [parent?, found]
  exact linked

end ParentsOlder

-----------------------------------------------------------------------------------------
-- The way to the root
-----------------------------------------------------------------------------------------

/-- From a scope the levels are its own and those from its parent on. -/
theorem levelsFrom_of_found {store : Store} {id : ScopeId} {scope : Scope}
    (found : store.scope? id = some scope) (steps : Nat)
    : store.levelsFrom (steps + 1) id
      = scope.level :: (scope.parent.map (store.levelsFrom steps)).getD [] := by
  simp only [levelsFrom, found]

/-- Where there is no scope, there are no levels. -/
theorem levelsFrom_of_absent {store : Store} {id : ScopeId} (absent : store.scope? id = none)
    (steps : Nat)
    : store.levelsFrom steps id = [] := by
  cases steps with
  | zero => rfl
  | succ steps => simp only [levelsFrom, absent]

/-- The way from a scope meets only scopes that are not younger. -/
theorem levelsFrom_congr {before after : Store} (older : before.ParentsOlder) {id : ScopeId}
    (same : ∀ other ≤ id, after.scope? other = before.scope? other) (steps : Nat)
    : after.levelsFrom steps id = before.levelsFrom steps id := by
  induction steps generalizing id with
  | zero => rfl
  | succ steps ih =>
      have here := same id (Nat.le_refl id)
      cases found : before.scope? id with
      | none => rw [levelsFrom_of_absent found, levelsFrom_of_absent (here.trans found)]
      | some scope =>
          rw [levelsFrom_of_found found, levelsFrom_of_found (here.trans found)]
          cases linked : scope.parent with
          | none => rfl
          | some parent =>
              have less := older.lt_of_found found linked
              have rest : after.levelsFrom steps parent = before.levelsFrom steps parent :=
                ih fun other le => same other (Nat.le_trans le (Nat.le_of_lt less))
              simp only [Option.map_some, Option.getD_some, rest]

/-- By induction on the scope: its parent is older and needs fewer steps. -/
theorem levelsFrom_enough {store : Store} (older : store.ParentsOlder) {id : ScopeId} {steps : Nat}
    (enough : id < steps)
    : store.levelsFrom steps id = store.levelsFrom (id + 1) id := by
  induction id using Nat.strongRecOn generalizing steps with
  | ind id ih =>
      cases steps with
      | zero => cases enough
      | succ steps =>
          cases found : store.scope? id with
          | none => rw [levelsFrom_of_absent found, levelsFrom_of_absent found]
          | some scope =>
              rw [levelsFrom_of_found found, levelsFrom_of_found found]
              cases linked : scope.parent with
              | none => rfl
              | some parent =>
                  have less := older.lt_of_found found linked
                  have fewer : parent < steps := Nat.lt_of_lt_of_le less (Nat.le_of_lt_succ enough)
                  simp only [Option.map_some, Option.getD_some, ih parent less fewer,
                    ih parent less less]

/-- The levels around a scope are those from its parent on. -/
theorem outer_chain (store : Store) (id : ScopeId)
    : (store.chain id).outer = ((store.parent? id).map (store.levelsFrom id)).getD [] := by
  simp only [chain, levelsFrom, parent?]
  cases store.scope? id <;> rfl

/-- The chain of a scope has the levels from it on, with steps enough to reach the root. -/
theorem levels_chain {store : Store} {id : ScopeId} (present : id < store.scopes.size)
    : (store.chain id).levels = store.levelsFrom (id + 1) id := by
  simp only [chain, Chain.levels, levelsFrom, scope?_of_present present]
  rfl

theorem scope?_child_of_present {store : Store} {other : ScopeId}
    (present : other < store.scopes.size) (id : ScopeId)
    : (store.child id).1.scope? other = store.scope? other :=
  (scope?_create store _ _ _).trans (if_neg (Nat.ne_of_lt present))

/-- A new child changes no chain that was there. -/
theorem levelsFrom_child {store : Store} (older : store.ParentsOlder) {other : ScopeId}
    (present : other < store.scopes.size) (id : ScopeId) (steps : Nat)
    : (store.child id).1.levelsFrom steps other = store.levelsFrom steps other :=
  levelsFrom_congr older
    (fun _ le => scope?_child_of_present (Nat.lt_of_le_of_lt le present) id) steps

/-- Making a child changes no chain of the others. -/
theorem chain_child_of_present {store : Store} (older : store.ParentsOlder) {other : ScopeId}
    (present : other < store.scopes.size) (id : ScopeId)
    : (store.child id).1.chain other = store.chain other := by
  rw [chain, chain, level_child_of_present present, levelsFrom_child older present]

/-- The levels around a new child are those of the scope that it was made from, of which it has a
copy. -/
theorem chain_child {store : Store} (older : store.ParentsOlder) {id : ScopeId}
    (present : id < store.scopes.size)
    : (store.child id).1.chain (store.child id).2 = (store.chain id).child := by
  have outer : ((store.child id).1.chain (store.child id).2).outer = (store.chain id).levels := by
    rw [outer_chain, parent?, scope?_child, levels_chain present,
      ← levelsFrom_enough older present, ← levelsFrom_child older present id]
    rfl
  calc (store.child id).1.chain (store.child id).2
      _ = { level := (store.child id).1.level (store.child id).2,
            outer := ((store.child id).1.chain (store.child id).2).outer } := rfl
      _ = { level := store.level id, outer := (store.chain id).levels } := by
          rw [level_child, outer]
      _ = (store.chain id).child := rfl

-----------------------------------------------------------------------------------------
-- Writing to one scope
-----------------------------------------------------------------------------------------

namespace WritesOnly

variable {id : ScopeId} {before middle after : Store}

theorem refl (id : ScopeId) (older : before.ParentsOlder)
    : WritesOnly id before before :=
  ⟨Nat.le_refl _, fun _ _ => rfl, rfl, older⟩

theorem present (writes : WritesOnly id before after) {other : ScopeId}
    (present : other < before.scopes.size)
    : other < after.scopes.size :=
  Nat.lt_of_lt_of_le present writes.grows

/-- What outlasts writing to a scope outlasts writing to it twice. -/
theorem trans (first : WritesOnly id before middle) (later : WritesOnly id middle after)
    : WritesOnly id before after where
  grows := Nat.le_trans first.grows later.grows
  others present differs :=
    (later.others (first.present present) differs).trans (first.others present differs)
  parent := later.parent.trans first.parent
  older := later.older

/-- Writing the level of a scope writes to this scope only. -/
theorem setLevel (older : before.ParentsOlder) (level : Level)
    : WritesOnly id before (before.setLevel id level) where
  grows := Nat.le_of_eq (size_setLevel _ _ _).symm
  others _ differs := by rw [scope?_setLevel, if_neg differs.symm]
  parent := parent?_setLevel _ _ _ _
  older := older.setLevel id level

/-- The scopes that were there are as if just the level had been replaced. -/
theorem scope?_eq (writes : WritesOnly id before after) (present : id < before.scopes.size)
    {other : ScopeId} (there : other < before.scopes.size)
    : after.scope? other = (before.setLevel id (after.level id)).scope? other := by
  rw [scope?_setLevel]
  by_cases same : id = other
  · subst same
    rw [if_pos rfl, scope?_of_present (writes.present present), scope?_of_present present,
      writes.parent]
    rfl
  · rw [if_neg same, writes.others there (Ne.symm same)]

/-- The levels around the scope that is written to stay as they are. -/
theorem outer (writes : WritesOnly id before after) (older : before.ParentsOlder)
    (present : id < before.scopes.size)
    : (after.chain id).outer = (before.chain id).outer := by
  rw [outer_chain, outer_chain, writes.parent]
  cases linked : before.parent? id with
  | none => rfl
  | some parent =>
      have less : parent < id := older id parent linked
      have same : ∀ other ≤ parent, after.scope? other = before.scope? other := by
        intro other le
        have lower : other < id := Nat.lt_of_le_of_lt le less
        exact writes.others (Nat.lt_trans lower present) (Nat.ne_of_lt lower)
      simp only [Option.map_some, Option.getD_some, levelsFrom_congr older same]

/-- Writing to a new child leaves all scopes that were there before. -/
theorem scope?_of_child (writes : WritesOnly (before.child id).2 (before.child id).1 after)
    {other : ScopeId} (present : other < before.scopes.size)
    : after.scope? other = before.scope? other := by
  have differs : other ≠ before.scopes.size := Nat.ne_of_lt present
  have there : other < (before.child id).1.scopes.size := by
    rw [child, size_create]
    exact Nat.lt_succ_of_lt present
  rw [writes.others there differs, scope?_child_of_present present]

/-- Writing to a child of a scope leaves all others as they were, since the child is new. -/
theorem of_child (writes : WritesOnly (before.child id).2 (before.child id).1 after)
    (present : id < before.scopes.size)
    : WritesOnly id before after where
  grows := by
    refine Nat.le_trans ?_ writes.grows
    rw [child, size_create]
    exact Nat.le_succ _
  others there _ := writes.scope?_of_child there
  parent := by rw [parent?, parent?, writes.scope?_of_child present]
  older := writes.older

end WritesOnly

end Store

end ScopedWhile
