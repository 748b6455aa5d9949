import ScopedWhile.Proofs.Scope.Lineage

/-!
What can be done to a store, and what outlasts it. A scope is made, alone or inside of another that
is there already, a name is bound in a scope to any datum, scopes and the scope itself among them,
or a scope takes over the values of another. Whatever is done in a row, parents stay older than
their children, a scope that is not written to stays as it is, and the names of the others keep
their places.
-/

namespace ScopedWhile

/-- Setting a name removes none. -/
theorem Level.names_grow_of_set (level : Level) (name : String) (datum : Datum)
    : level.names <+: (level.set name datum).names := by
  by_cases bound : name ∈ level.names
  · simp only [names_set_of_mem bound, List.prefix_rfl]
  · rw [names_set_of_notMem bound]
    exact List.prefix_append _ _

namespace Store

inductive Act where
  | create (level : Level) (parent : Option ScopeId)
  | child (id : ScopeId)
  | bind (id : ScopeId) (name : String) (datum : Datum)
  | mergeBack (id inner : ScopeId)

namespace Act

/-- The scopes that must be there for an act. -/
def subjects : Act → List ScopeId
  | .create _ parent => parent.toList
  | .child id => [id]
  | .bind id _ _ => [id]
  | .mergeBack id inner => [id, inner]

/-- The scope that an act writes to; a new scope does not count. -/
def target? : Act → Option ScopeId
  | .create _ _ => none
  | .child _ => none
  | .bind id _ _ => some id
  | .mergeBack id _ => some id

/-- The scopes that are written to by some of the acts. -/
def targets (acts : List Act) : List ScopeId :=
  acts.filterMap target?

/-- Acts write to the target of the first one and to those of the others. -/
theorem targets_cons (act : Act) (rest : List Act)
    : targets (act :: rest) = act.target?.toList ++ targets rest := by
  rw [targets, List.filterMap_cons]
  cases act.target? <;> rfl

end Act

def perform (store : Store) : Act → Store
  | .create level parent => (store.create level parent).1
  | .child id => (store.child id).1
  | .bind id name datum => store.bind id name datum
  | .mergeBack id inner => store.mergeBack id inner

/-- Acts in a row lead from one store to another. Each finds its subjects there. -/
inductive Performs : Store → List Act → Store → Prop where
  | nil (store : Store) : Performs store [] store
  | cons {store after : Store} {act : Act} {rest : List Act}
      (there : ∀ id ∈ act.subjects, id < store.scopes.size)
      (later : Performs (store.perform act) rest after)
      : Performs store (act :: rest) after

/-- What outlasts any acts that write to the given scopes. -/
structure Extends (written : List ScopeId) (before after : Store) : Prop where
  grows : before.scopes.size ≤ after.scopes.size
  names {id : ScopeId}
    : id < before.scopes.size → (before.level id).names <+: (after.level id).names
  others {id : ScopeId}
    : id < before.scopes.size → id ∉ written → after.level id = before.level id
  older : before.ParentsOlder → after.ParentsOlder

namespace Extends

variable {before middle after : Store} {written later : List ScopeId}

theorem refl (before : Store)
    : Extends [] before before :=
  ⟨Nat.le_refl _, fun _ => List.prefix_rfl, fun _ _ => rfl, fun older => older⟩

/-- What outlasts two rows of acts outlasts both in a row. -/
theorem trans (first : Extends written before middle) (second : Extends later middle after)
    : Extends (written ++ later) before after where
  grows := Nat.le_trans first.grows second.grows
  names present :=
    (first.names present).trans (second.names (Nat.lt_of_lt_of_le present first.grows))
  others present spared := by
    rw [List.mem_append, not_or] at spared
    rw [second.others (Nat.lt_of_lt_of_le present first.grows) spared.2,
      first.others present spared.1]
  older := second.older ∘ first.older

/-- A new scope leaves all others as they were. -/
theorem create (level : Level) {parent : Option ScopeId}
    (there : ∀ id, parent = some id → id < before.scopes.size)
    : Extends [] before (before.create level parent).1 where
  grows := by
    rw [size_create]
    exact Nat.le_succ _
  names present := by simp only [level_create_of_present present, List.prefix_rfl]
  others present _ := level_create_of_present present _ _
  older older := older.create level there

/-- Writing a level that keeps the names changes the one scope only. -/
theorem setLevel {id : ScopeId} (present : id < before.scopes.size) {level : Level}
    (grown : (before.level id).names <+: level.names)
    : Extends [id] before (before.setLevel id level) where
  grows := Nat.le_of_eq (size_setLevel _ _ _).symm
  names {other} _ := by
    by_cases same : other = id
    · rw [same, level_setLevel present]
      exact grown
    · simp only [level_setLevel_of_ne same, List.prefix_rfl]
  others _ spared := level_setLevel_of_ne (List.ne_of_not_mem_cons spared) _
  older older := older.setLevel id level

end Extends

/-- One act. A scope is made of which nothing is known, or one that is there gets a level that
begins with the names it had. -/
theorem extends_perform {store : Store} {act : Act}
    (there : ∀ id ∈ act.subjects, id < store.scopes.size)
    : Extends act.target?.toList store (store.perform act) := by
  cases act with
  | create level parent =>
      exact .create level fun id linked => there id (Option.mem_toList.mpr linked)
  | child id =>
      refine .create _ fun parent linked => ?_
      cases linked
      exact there id (List.mem_singleton_self id)
  | bind id name datum =>
      exact .setLevel (there id (List.mem_singleton_self id)) (Level.names_grow_of_set _ _ _)
  | mergeBack id inner =>
      refine .setLevel (there id List.mem_cons_self) ?_
      simp only [Level.names_mergeBack, List.prefix_rfl]

/-- Acts change the scopes they write to only, and take no name away. By induction over the acts. -/
theorem Performs.extends {before after : Store} {acts : List Act}
    (performed : Performs before acts after)
    : Extends (Act.targets acts) before after := by
  induction performed with
  | nil store => exact .refl store
  | cons there later ih =>
      rw [Act.targets_cons]
      exact (extends_perform there).trans ih

/-- Whatever is done to an empty store, no link leads to a younger scope. -/
theorem Performs.parentsOlder {store : Store} {acts : List Act} (built : Performs {} acts store)
    : store.ParentsOlder :=
  built.extends.older .empty

end Store

end ScopedWhile
