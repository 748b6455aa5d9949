import ScopedWhile.Proofs.Scope.History
import ScopedWhile.Proofs.Scope.Restriction

/-!
A child as a view of its scope. A child starts as a copy, is written to on its own as a draft, and
is merged back. Main statement: merging back keeps the order of the names and takes over what the
other scope binds; and for drafts, merging an untouched one changes nothing, a new copy shows what
was merged, and of two drafts merged one after the other the second counts.
-/

namespace ScopedWhile

-----------------------------------------------------------------------------------------
-- Levels
-----------------------------------------------------------------------------------------

namespace Level

/-- A merged name has the datum of the inner level, if that binds it. -/
theorem get?_mergeBack_of_mem {level inner : Level} {name : String} (bound : name ∈ level.names)
    : (level.mergeBack inner).get? name
      = if name ∈ inner.names then inner.get? name else level.get? name := by
  obtain ⟨old, held⟩ := exists_get?_of_mem bound
  rw [get?_mergeBack, held, Option.map_some]
  by_cases inside : name ∈ inner.names
  · obtain ⟨new, found⟩ := exists_get?_of_mem inside
    rw [if_pos inside, found, Option.getD_some]
  · rw [if_neg inside, get?_eq_none_iff.mpr inside, Option.getD_none]

/-- Merging back a copy changes nothing. -/
theorem mergeBack_self (level : Level)
    : level.mergeBack level = level := by
  refine ext_get? (names_mergeBack level level) fun name => ?_
  rw [get?_mergeBack]
  cases level.get? name <;> rfl

/-- Merging back twice is merging back once. -/
theorem mergeBack_again (level inner : Level)
    : (level.mergeBack inner).mergeBack inner = level.mergeBack inner := by
  refine ext_get? (names_mergeBack _ inner) fun name => ?_
  simp only [get?_mergeBack, Option.map_map]
  cases inner.get? name <;> rfl

/-- A merge that binds every name leaves nothing of one before it. -/
theorem mergeBack_mergeBack {level second : Level} (covered : level.names ⊆ second.names)
    (first : Level)
    : (level.mergeBack first).mergeBack second = level.mergeBack second := by
  refine ext_get? (by simp only [names_mergeBack]) fun name => ?_
  simp only [get?_mergeBack, Option.map_map]
  cases held : level.get? name with
  | none => rfl
  | some old =>
      have bound : name ∈ level.names := get?_isSome_iff.mp (held ▸ rfl)
      obtain ⟨new, found⟩ := exists_get?_of_mem (covered bound)
      simp only [found, Option.map_some, Function.comp_apply, Option.getD_some]

/-- Binds a name as an inner level does, if that binds it. -/
def takeOver (inner level : Level) (name : String) : Level :=
  match inner.get? name with
  | some datum => level.set name datum
  | none => level

variable {level : Level} {name : String}

/-- Setting a name to the datum it has changes nothing. -/
theorem set_of_get? {datum : Datum} (held : level.get? name = some datum)
    : level.set name datum = level := by
  have bound : name ∈ level.names := get?_isSome_iff.mp (held ▸ rfl)
  refine ext_get? (names_set_of_mem bound) fun other => ?_
  rw [get?_set]
  split
  · rename_i same
    rw [same, held]
  · rfl

/-- Taking over from a copy changes nothing. -/
theorem takeOver_self (level : Level) (name : String)
    : level.takeOver level name = level := by
  rw [takeOver]
  split
  · rename_i datum held
    exact set_of_get? held
  · rfl

/-- Taking over a bound name adds none. -/
theorem names_takeOver (bound : name ∈ level.names) (inner : Level)
    : (inner.takeOver level name).names = level.names := by
  rw [takeOver]
  split
  · exact names_set_of_mem bound
  · rfl

/-- One name is as after merging back, the others are as before. -/
theorem get?_takeOver (bound : name ∈ level.names) (inner : Level) (other : String)
    : (inner.takeOver level name).get? other
      = if other = name then (level.mergeBack inner).get? other else level.get? other := by
  obtain ⟨old, held⟩ := exists_get?_of_mem bound
  by_cases same : other = name
  · subst same
    rw [if_pos rfl, get?_mergeBack, held]
    cases found : inner.get? other with
    | none => simp only [takeOver, found, held, Option.map_some, Option.getD_none]
    | some datum =>
        simp only [takeOver, found, get?_set, if_true, Option.map_some, Option.getD_some]
  · rw [if_neg same]
    cases found : inner.get? name with
    | none => simp only [takeOver, found]
    | some datum => simp only [takeOver, found, get?_set, if_neg same]

/-- Taking over a name first makes no difference to merging back. -/
theorem mergeBack_takeOver (bound : name ∈ level.names) (inner : Level)
    : (inner.takeOver level name).mergeBack inner = level.mergeBack inner := by
  refine ext_get? (by simp only [names_mergeBack, names_takeOver bound]) fun other => ?_
  rw [get?_mergeBack, get?_takeOver bound]
  split
  · rw [← get?_mergeBack, mergeBack_again]
  · rw [get?_mergeBack]

/-- By induction on the names still to come: those that have been taken over are as after merging
back already, and what is left to merge does not change. -/
theorem foldl_takeOver (inner : Level) {names : List String} (bound : names ⊆ level.names)
    : (names.foldl inner.takeOver level).names = level.names
      ∧ ∀ other, (names.foldl inner.takeOver level).get? other
          = if other ∈ names then (level.mergeBack inner).get? other else level.get? other := by
  induction names generalizing level with
  | nil => exact ⟨rfl, fun other => by simp⟩
  | cons name rest ih =>
      obtain ⟨first, others⟩ := List.cons_subset.mp bound
      have kept := names_takeOver first inner
      have within : rest ⊆ (inner.takeOver level name).names := kept ▸ others
      obtain ⟨names, data⟩ := ih within
      refine ⟨names.trans kept, fun other => ?_⟩
      rw [List.foldl_cons, data, mergeBack_takeOver first, get?_takeOver first]
      by_cases same : other = name <;> by_cases later : other ∈ rest <;> simp [same, later]

/-- Merging back takes over one name after another. -/
theorem mergeBack_eq_foldl (level inner : Level)
    : level.mergeBack inner = level.names.foldl inner.takeOver level := by
  obtain ⟨names, data⟩ := foldl_takeOver inner (List.Subset.refl level.names)
  refine ext_get? ((names_mergeBack level inner).trans names.symm) fun name => ?_
  rw [data]
  split
  · rfl
  · rename_i free
    rw [get?_mergeBack, get?_eq_none_iff.mpr free]
    rfl

end Level

namespace Store

-----------------------------------------------------------------------------------------
-- Scopes of a store
-----------------------------------------------------------------------------------------

/-- Stores with the same scopes are the same. -/
theorem ext_scope? {a b : Store} (same : ∀ id, a.scope? id = b.scope? id)
    : a = b := by
  obtain ⟨scopes⟩ := a
  obtain ⟨others⟩ := b
  exact congrArg Store.mk (Array.ext_getElem? same)

/-- The second of two writes to a scope remains. -/
theorem setLevel_setLevel (store : Store) (id : ScopeId) (first second : Level)
    : (store.setLevel id first).setLevel id second = store.setLevel id second := by
  apply ext_scope?
  intro other
  simp only [scope?_setLevel]
  split
  · cases store.scope? other <;> rfl
  · rfl

/-- Writing the level that a scope has changes nothing. -/
theorem setLevel_level (store : Store) (id : ScopeId)
    : store.setLevel id (store.level id) = store := by
  apply ext_scope?
  intro other
  rw [scope?_setLevel]
  split
  · rename_i same
    subst same
    rw [Store.level]
    cases store.scope? id <;> rfl
  · rfl

/-- Also of an id that names no scope, since its empty level has nothing to take over. -/
theorem level_mergeBack (store : Store) (id inner : ScopeId)
    : (store.mergeBack id inner).level id = (store.level id).mergeBack (store.level inner) := by
  rw [mergeBack, Store.level, scope?_setLevel, if_pos rfl]
  simp only [Store.level]
  cases store.scope? id <;> rfl

/-- Merging back writes to the one scope only. -/
theorem level_mergeBack_of_ne {id other : ScopeId} (differs : other ≠ id) (store : Store)
    (inner : ScopeId)
    : (store.mergeBack id inner).level other = store.level other :=
  level_setLevel_of_ne differs _

/-- Merging back a scope twice is merging it back once. -/
theorem mergeBack_again (store : Store) (id inner : ScopeId)
    : (store.mergeBack id inner).mergeBack id inner = store.mergeBack id inner := by
  have taken
      : ((store.mergeBack id inner).level id).mergeBack ((store.mergeBack id inner).level inner)
        = (store.level id).mergeBack (store.level inner) := by
    by_cases same : inner = id
    · subst same
      rw [level_mergeBack, Level.mergeBack_self, Level.mergeBack_self]
    · rw [level_mergeBack, level_mergeBack_of_ne same, Level.mergeBack_again]
  rw [mergeBack, taken, mergeBack, setLevel_setLevel]

/-- Of two scopes merged back the second one remains, if it binds all names. -/
theorem mergeBack_mergeBack {store : Store} {id second : ScopeId} (differs : second ≠ id)
    (covered : (store.level id).names ⊆ (store.level second).names) (first : ScopeId)
    : (store.mergeBack id first).mergeBack id second = store.mergeBack id second := by
  have taken
      : ((store.mergeBack id first).level id).mergeBack ((store.mergeBack id first).level second)
        = (store.level id).mergeBack (store.level second) := by
    rw [level_mergeBack, level_mergeBack_of_ne differs, Level.mergeBack_mergeBack covered]
  rw [mergeBack, taken, mergeBack, setLevel_setLevel, mergeBack]

/-- Binds a name of one scope as another scope does, if that binds it. -/
def takeOver (id inner : ScopeId) (store : Store) (name : String) : Store :=
  match (store.level inner).get? name with
  | some datum => store.bind id name datum
  | none => store

/-- Taking over a name writes to the level of the scope. -/
theorem takeOver_eq (store : Store) (id inner : ScopeId) (name : String)
    : store.takeOver id inner name
      = store.setLevel id ((store.level inner).takeOver (store.level id) name) := by
  rw [takeOver, Level.takeOver]
  split
  · rfl
  · rw [setLevel_level]

/-- Taking over names one after another writes the level that has them all, by induction over the
names. -/
theorem foldl_takeOver {store : Store} {id inner : ScopeId} (present : id < store.scopes.size)
    (names : List String)
    : names.foldl (takeOver id inner) store
      = store.setLevel id (names.foldl (store.level inner).takeOver (store.level id)) := by
  induction names generalizing store with
  | nil => exact (setLevel_level store id).symm
  | cons name rest ih =>
      -- The scope that is read stays as it is, also when it is the one that is written to.
      have read (level : Level) (same : inner = id → level = store.level id)
          : (store.setLevel id level).level inner = store.level inner := by
        by_cases aliased : inner = id
        · rw [aliased, level_setLevel present, same aliased]
        · exact level_setLevel_of_ne aliased level
      have there : id < (store.takeOver id inner name).scopes.size := by
        rw [takeOver_eq, size_setLevel]
        exact present
      rw [List.foldl_cons, ih there, takeOver_eq, level_setLevel present, setLevel_setLevel, read]
      · rfl
      · intro aliased
        rw [aliased, Level.takeOver_self]

/-- Merging back a scope takes over one name after another. -/
theorem mergeBack_eq_foldl {store : Store} {id : ScopeId} (present : id < store.scopes.size)
    (inner : ScopeId)
    : store.mergeBack id inner = (store.level id).names.foldl (takeOver id inner) store := by
  rw [foldl_takeOver present, mergeBack, Level.mergeBack_eq_foldl]

-----------------------------------------------------------------------------------------
-- Drafts
-----------------------------------------------------------------------------------------

/-- A scope gets a child, its draft, and acts follow that give the scope itself no new name. -/
structure Drafts (before : Store) (id : ScopeId) (acts : List Act) (after : Store) : Prop where
  present : id < before.scopes.size
  performed : Performs (before.child id).1 acts after
  steady : (after.level id).names = (before.level id).names

namespace Drafts

variable {before after : Store} {id : ScopeId} {acts : List Act}

theorem draft_ne (drafts : Drafts before id acts after)
    : (before.child id).2 ≠ id :=
  (Nat.ne_of_lt drafts.present).symm

theorem draft_present (drafts : Drafts before id acts after)
    : (before.child id).2 < after.scopes.size :=
  Nat.lt_of_lt_of_le (present_child before id) drafts.performed.extends.grows

/-- A draft binds all names of its scope. -/
theorem covers (drafts : Drafts before id acts after)
    : (after.level id).names ⊆ (after.level (before.child id).2).names := by
  have grown := drafts.performed.extends.names (present_child before id)
  rw [level_child] at grown
  rw [drafts.steady]
  exact grown.subset

/-- Neither the scope nor its draft is written to. -/
theorem level_of_untouched (drafts : Drafts before id acts after) (waits : id ∉ Act.targets acts)
    (untouched : (before.child id).2 ∉ Act.targets acts)
    : after.level (before.child id).2 = after.level id := by
  have extended := drafts.performed.extends
  have there : id < (before.child id).1.scopes.size := by
    rw [child, size_create]
    exact Nat.lt_succ_of_lt drafts.present
  rw [extended.others (present_child before id) untouched, level_child,
    extended.others there waits, level_child_of_present drafts.present]

end Drafts

/-- Merging back goes name by name, keeps the order of the names, gives those that the other scope
binds its data and leaves the rest, also of the store; doing it again changes nothing. A draft that
was not written to merges without a change, a new child agrees with the draft merged last on all
names of the scope, and merging another scope first makes no difference. -/
theorem merging_back_obeys_view_laws {store : Store} {id : ScopeId}
    (present : id < store.scopes.size)
    : (∀ inner,
        let merged := store.mergeBack id inner
        merged = (store.level id).names.foldl (takeOver id inner) store
        ∧ (merged.level id).names = (store.level id).names
        ∧ (∀ name ∈ (store.level id).names,
            (merged.level id).get? name
              = if name ∈ (store.level inner).names then (store.level inner).get? name
                else (store.level id).get? name)
        ∧ (∀ other, other ≠ id → merged.scope? other = store.scope? other)
        ∧ merged.parent? id = store.parent? id
        ∧ merged.mergeBack id inner = merged)
      ∧ ∀ before acts, Drafts before id acts store →
          let draft := (before.child id).2
          let merged := store.mergeBack id draft
          let copied := merged.child id
          (id ∉ Act.targets acts → draft ∉ Act.targets acts → merged = store)
          ∧ (∀ name ∈ (store.level id).names,
              (copied.1.level copied.2).get? name = (copied.1.level draft).get? name)
          ∧ ∀ first, (store.mergeBack id first).mergeBack id draft = merged := by
  refine ⟨?_, ?_⟩
  · intro inner merged
    have level : merged.level id = (store.level id).mergeBack (store.level inner) :=
      level_mergeBack store id inner
    refine ⟨mergeBack_eq_foldl present inner, ?_, ?_, ?_, parent?_setLevel store id _ id,
      mergeBack_again store id inner⟩
    · rw [level, Level.names_mergeBack]
    · intro name bound
      rw [level, Level.get?_mergeBack_of_mem bound]
    · intro other differs
      exact (scope?_setLevel store id _ other).trans (if_neg differs.symm)
  · intro before acts drafts draft merged copied
    refine ⟨?_, ?_, mergeBack_mergeBack drafts.draft_ne drafts.covers⟩
    · intro waits untouched
      have same : store.level draft = store.level id := drafts.level_of_untouched waits untouched
      simp only [merged, mergeBack, same, Level.mergeBack_self, setLevel_level]
    · intro name bound
      have there : draft < merged.scopes.size :=
        Nat.lt_of_lt_of_eq drafts.draft_present (size_setLevel store id _).symm
      calc (copied.1.level copied.2).get? name
          _ = (merged.level id).get? name := by rw [level_child]
          _ = (store.level draft).get? name := by
              rw [level_mergeBack, Level.get?_mergeBack_of_mem bound, if_pos (drafts.covers bound)]
          _ = (merged.level draft).get? name := by rw [level_mergeBack_of_ne drafts.draft_ne]
          _ = (copied.1.level draft).get? name := by rw [level_child_of_present there]

/-- Of three drafts of one scope two are written to in turn and the third is not. What a draft binds
beyond the names of the scope, here the draft itself, is dropped. -/
theorem merging_back_obeys_view_laws_threeDrafts
    : let level := Level.ofList [("x", .boolean true), ("y", .boolean true)]
      let before := (Store.create {} level none).1
      let between := (before.child 0).1
      let later := (between.child 0).1
      let edits : List Act :=
        [.bind 2 "y" (.boolean false), .bind 1 "x" (.boolean false), .bind 2 "self" (.scope 2)]
      let store := edits.foldl perform (later.child 0).1
      let values (store : Store) := (store.level 0).names.map (store.chain 0).lookup?
      (0 < store.scopes.size
        ∧ Drafts before 0 (.child 0 :: .child 0 :: edits) store
        ∧ Drafts between 0 (.child 0 :: edits) store
        ∧ Drafts later 0 edits store
        ∧ 0 ∉ Act.targets edits ∧ 3 ∉ Act.targets edits)
      ∧ values (store.mergeBack 0 1) = [some (.boolean false), some (.boolean true)]
      ∧ values (store.mergeBack 0 2) = [some (.boolean true), some (.boolean false)]
      ∧ (store.mergeBack 0 1).mergeBack 0 2 = store.mergeBack 0 2
      ∧ store.mergeBack 0 3 = store := by
  intro level before between later edits store values
  have present : 0 < store.scopes.size := by decide +kernel
  have performed : Performs (later.child 0).1 edits store :=
    .cons (by decide +kernel) (.cons (by decide +kernel) (.cons (by decide +kernel) (.nil _)))
  have first : Drafts before 0 (.child 0 :: .child 0 :: edits) store :=
    ⟨by decide, .cons (by decide) (.cons (by decide) performed), by decide +kernel⟩
  have second : Drafts between 0 (.child 0 :: edits) store :=
    ⟨by decide, .cons (by decide) performed, by decide +kernel⟩
  have third : Drafts later 0 edits store := ⟨by decide, performed, by decide +kernel⟩
  have waits : 0 ∉ Act.targets edits := by decide
  have untouched : 3 ∉ Act.targets edits := by decide
  obtain ⟨_, drafts⟩ := merging_back_obeys_view_laws present
  refine ⟨⟨present, first, second, third, waits, untouched⟩, ?_, ?_, ?_, ?_⟩
  · decide +kernel
  · decide +kernel
  · exact (drafts between _ second).2.2 1
  · exact (drafts later _ third).1 waits untouched

end Store

end ScopedWhile
