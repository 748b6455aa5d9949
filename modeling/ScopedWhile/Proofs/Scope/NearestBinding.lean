import ScopedWhile.Evaluation.Expr
import ScopedWhile.Proofs.Scope.History
import ScopedWhile.Proofs.Scope.Restriction

/-!
The way up from a scope. A lookup climbs the links until a scope binds the name, and the depth of a
scope is how many links a climb to beyond its root follows. Main statement: in every store that can
be built, whatever its scopes hold, no scope is above itself, so that all climbs end, and a lookup
gives what the nearest scope that binds the name binds it to, if that is a run-time value.
-/

namespace ScopedWhile

namespace Store

/-- The scope that lies a number of links above another. -/
def ancestor? (store : Store) : Nat → ScopeId → Option ScopeId
  | 0, id => some id
  | links + 1, id => (store.parent? id).bind (store.ancestor? links)

def Binds (store : Store) (name : String) (id : ScopeId) : Prop :=
  name ∈ (store.level id).names

/-- A climb from a place, if it is a scope, up to the first scope that is wanted or beyond the root:
where it starts, how many links it follows and where it ends. -/
inductive Climbs (store : Store) (wanted : ScopeId → Prop)
    : Option ScopeId → Nat → Option ScopeId → Prop where
  | beyond : Climbs store wanted none 0 none
  | here {id : ScopeId} (found : wanted id) : Climbs store wanted (some id) 0 (some id)
  | up {id : ScopeId} {links : Nat} {ended : Option ScopeId} (unwanted : ¬ wanted id)
      (above : Climbs store wanted (store.parent? id) links ended)
      : Climbs store wanted (some id) (links + 1) ended

/-- The scope that is wanted and lies the fewest links above another, if not at it. -/
structure Nearest (store : Store) (wanted : ScopeId → Prop) (id : ScopeId) (links : Nat)
    (found : ScopeId) : Prop where
  above : store.ancestor? links id = some found
  reached : wanted found
  first {fewer : Nat} {closer : ScopeId}
    : fewer < links → store.ancestor? fewer id = some closer → ¬ wanted closer

variable {store : Store} {wanted : ScopeId → Prop}

-----------------------------------------------------------------------------------------
-- Climbs
-----------------------------------------------------------------------------------------

/-- Every ancestor is older, by induction on the links. -/
theorem ParentsOlder.ancestor?_lt (older : store.ParentsOlder) {links : Nat} {id other : ScopeId}
    (above : store.ancestor? (links + 1) id = some other)
    : other < id := by
  induction links generalizing id with
  | zero =>
      obtain ⟨parent, linked, same⟩ := Option.bind_eq_some_iff.mp above
      cases same
      exact older id _ linked
  | succ links ih =>
      obtain ⟨parent, linked, rest⟩ := Option.bind_eq_some_iff.mp above
      exact Nat.lt_trans (ih rest) (older id parent linked)

/-- By induction on the scope, since its parent is older. -/
theorem ParentsOlder.exists_climbs (older : store.ParentsOlder) (wanted : ScopeId → Prop)
    (start : Option ScopeId)
    : ∃ links ended, Climbs store wanted start links ended := by
  have from_scope (id : ScopeId) : ∃ links ended, Climbs store wanted (some id) links ended := by
    induction id using Nat.strongRecOn with
    | ind id ih =>
        by_cases found : wanted id
        · exact ⟨0, some id, .here found⟩
        · cases linked : store.parent? id with
          | none =>
              refine ⟨1, none, .up found ?_⟩
              rw [linked]
              exact .beyond
          | some parent =>
              obtain ⟨links, ended, above⟩ := ih parent (older id parent linked)
              refine ⟨links + 1, ended, .up found ?_⟩
              rw [linked]
              exact above
  cases start with
  | none => exact ⟨0, none, .beyond⟩
  | some id => exact from_scope id

/-- There is one climb from a place only, by induction over it. -/
theorem Climbs.unique {start ended ended' : Option ScopeId} {links links' : Nat}
    (one : Climbs store wanted start links ended) (other : Climbs store wanted start links' ended')
    : links' = links ∧ ended' = ended := by
  induction one generalizing links' with
  | beyond =>
      cases other
      exact ⟨rfl, rfl⟩
  | here found =>
      cases other with
      | here => exact ⟨rfl, rfl⟩
      | up unwanted _ => exact absurd found unwanted
  | up unwanted _ ih =>
      cases other with
      | here found => exact absurd found unwanted
      | up _ above =>
          obtain ⟨same, ends⟩ := ih above
          exact ⟨congrArg (· + 1) same, ends⟩

/-- The nearest wanted scope is where the climb ends, by induction on the links. -/
theorem Nearest.climbs {id found : ScopeId} {links : Nat}
    (nearest : Nearest store wanted id links found)
    : Climbs store wanted (some id) links (some found) := by
  induction links generalizing id with
  | zero =>
      cases nearest.above
      exact .here nearest.reached
  | succ links ih =>
      obtain ⟨parent, linked, above⟩ := Option.bind_eq_some_iff.mp nearest.above
      have rest : Nearest store wanted parent links found := by
        refine ⟨above, nearest.reached, fun fewer closer => ?_⟩
        apply nearest.first (Nat.succ_lt_succ fewer)
        rw [ancestor?, linked]
        exact closer
      refine .up (nearest.first (Nat.succ_pos links) rfl) ?_
      rw [linked]
      exact ih rest

/-- Where a climb ends at a scope, that is the nearest wanted one. -/
theorem Climbs.nearest {start : Option ScopeId} {links : Nat} {found : ScopeId}
    (climbs : Climbs store wanted start links (some found))
    : ∃ id, start = some id ∧ Nearest store wanted id links found := by
  generalize ends : some found = ended at climbs
  induction climbs with
  | beyond => cases ends
  | here wanted =>
      cases ends
      exact ⟨found, rfl, rfl, wanted, fun fewer => absurd fewer (Nat.not_lt_zero _)⟩
  | @up id links ended unwanted _ ih =>
      obtain ⟨parent, linked, rest⟩ := ih ends
      refine ⟨id, rfl, ?_, rest.reached, ?_⟩
      · rw [ancestor?, linked]
        exact rest.above
      · intro fewer closer less above
        cases fewer with
        | zero =>
            cases above
            exact unwanted
        | succ fewer =>
            rw [ancestor?, linked] at above
            exact rest.first (Nat.lt_of_succ_lt_succ less) above

-----------------------------------------------------------------------------------------
-- What climbs find
-----------------------------------------------------------------------------------------

/-- The levels around a scope are those of its parent's chain. -/
theorem ParentsOlder.outer_chain (older : store.ParentsOlder) (id : ScopeId)
    : (store.chain id).outer
      = ((store.parent? id).map fun parent => (store.chain parent).levels).getD [] := by
  rw [Store.outer_chain]
  cases linked : store.parent? id with
  | none => rfl
  | some parent =>
      have less : parent < id := older id parent linked
      have present : parent < store.scopes.size := Nat.lt_trans less (present_of_parent? linked)
      simp only [Option.map_some, Option.getD_some]
      rw [levels_chain present, levelsFrom_enough older less]

/-- A scope is one deeper than its parent, and a root is at depth zero. -/
theorem ParentsOlder.depth_chain (older : store.ParentsOlder) (id : ScopeId)
    : (store.chain id).depth
      = ((store.parent? id).map fun parent => (store.chain parent).depth + 1).getD 0 := by
  rw [Chain.depth, older.outer_chain]
  cases store.parent? id <;> rfl

/-- A name that a scope does not bind is looked up in its parent. -/
theorem ParentsOlder.nearest?_of_unbound (older : store.ParentsOlder) {id : ScopeId} {name : String}
    (unbound : ¬ store.Binds name id)
    : (store.chain id).nearest? name
      = (store.parent? id).bind fun parent => (store.chain parent).nearest? name := by
  have absent : (store.chain id).level.get? name = none := Level.get?_eq_none_iff.mpr unbound
  rw [Chain.nearest?, Chain.levels, List.findSome?_cons, absent, older.outer_chain]
  cases store.parent? id <;> rfl

/-- A name that a scope binds is looked up there. -/
theorem nearest?_of_binds {id : ScopeId} {name : String} (binds : store.Binds name id)
    : (store.chain id).nearest? name = (store.level id).get? name := by
  obtain ⟨datum, held⟩ := Level.exists_get?_of_mem binds
  have first : (store.chain id).level.get? name = some datum := held
  rw [Chain.nearest?, Chain.levels, List.findSome?_cons, first, held]

namespace Climbs

variable {start ended : Option ScopeId} {links : Nat}

/-- The climb of a lookup. -/
theorem nearest?_eq {name : String} (climbs : Climbs store (store.Binds name) start links ended)
    (older : store.ParentsOlder)
    : (start.bind fun id => (store.chain id).nearest? name)
      = ended.bind fun holder => (store.level holder).get? name := by
  induction climbs with
  | beyond => rfl
  | here binds => exact nearest?_of_binds binds
  | up unbound _ ih => exact (older.nearest?_of_unbound unbound).trans ih

/-- The climb that counts links. It starts above the scope whose depth it is. -/
theorem depth_eq (climbs : Climbs store (fun _ => False) start links ended)
    (older : store.ParentsOlder)
    : ended = none ∧ (start.map fun id => (store.chain id).depth + 1).getD 0 = links := by
  induction climbs with
  | beyond => exact ⟨rfl, rfl⟩
  | here found => exact found.elim
  | @up id links ended _ _ ih =>
      refine ⟨ih.1, ?_⟩
      simp only [Option.map_some, Option.getD_some]
      rw [older.depth_chain, ih.2]

end Climbs

/-- The depth of a scope is the number of links from its parent beyond the root. -/
theorem ParentsOlder.climbs_depth (older : store.ParentsOlder) (id : ScopeId)
    : Climbs store (fun _ => False) (store.parent? id) (store.chain id).depth none := by
  obtain ⟨links, ended, climbs⟩ := older.exists_climbs (fun _ => False) (store.parent? id)
  obtain ⟨rfl, counted⟩ := climbs.depth_eq older
  rw [older.depth_chain, counted]
  exact climbs

-----------------------------------------------------------------------------------------
-- Lookups
-----------------------------------------------------------------------------------------

/-- What a lookup gives at the nearest scope that binds the name; scopes farther up do not count. -/
theorem Nearest.lookup? {name : String} {id holder : ScopeId} {links : Nat}
    (nearest : Nearest store (store.Binds name) id links holder) (older : store.ParentsOlder)
    : (store.chain id).lookup? name = ((store.level holder).get? name).bind Datum.toValue? := by
  have found : (store.chain id).nearest? name = (store.level holder).get? name :=
    nearest.climbs.nearest?_eq older
  rw [Chain.lookup?, found]

/-- A name has a value if the nearest scope that binds it holds this value. -/
theorem ParentsOlder.lookup?_eq_some_iff (older : store.ParentsOlder) (id : ScopeId) (name : String)
    (v : Value)
    : (store.chain id).lookup? name = some v
      ↔ ∃ links holder,
          Nearest store (store.Binds name) id links holder
          ∧ (store.level holder).get? name = some v.toDatum := by
  constructor
  · intro gives
    obtain ⟨links, ended, climbs⟩ := older.exists_climbs (store.Binds name) (some id)
    have found : (store.chain id).nearest? name = _ := climbs.nearest?_eq older
    obtain ⟨datum, near, value⟩ := Option.bind_eq_some_iff.mp gives
    obtain ⟨holder, rfl, held⟩ := Option.bind_eq_some_iff.mp (found.symm.trans near)
    obtain ⟨_, same, nearest⟩ := climbs.nearest
    cases same
    exact ⟨links, holder, nearest, Datum.toDatum_of_toValue? value ▸ held⟩
  · rintro ⟨links, holder, nearest, held⟩
    rw [nearest.lookup? older, held]
    exact v.toValue?_toDatum

/-- In every store that acts build from nothing, no scope lies above itself and all climbs end. A
depth counts the links up to the root, and a child has one more. A lookup gives a value exactly if
the nearest scope that binds the name binds it to that value, and the name is undefined otherwise,
also where a nearest binding to something else hides one farther up. In a child every expression
evaluates as in the scope it was made from. -/
theorem climbs_end_at_nearest_binding {acts : List Act} {store : Store}
    (built : Performs {} acts store)
    : (∀ id links, store.ancestor? (links + 1) id ≠ some id)
      ∧ (∀ wanted start, ∃ links ended,
          Climbs store wanted start links ended
          ∧ ∀ links' ended',
              Climbs store wanted start links' ended' → links' = links ∧ ended' = ended)
      ∧ ∀ id < store.scopes.size,
          let made := store.child id
          Climbs store (fun _ => False) (store.parent? id) (store.chain id).depth none
          ∧ (made.1.chain made.2).depth = (made.1.chain id).depth + 1
          ∧ (∀ name v,
              (store.chain id).lookup name = .ok v
              ↔ ∃ links holder,
                  Nearest store (store.Binds name) id links holder
                  ∧ (store.level holder).get? name = some v.toDatum)
          ∧ (∀ name,
              (store.chain id).lookup name = .error (.undefinedVariable name)
              ↔ ∀ links holder,
                  Nearest store (store.Binds name) id links holder
                  → ∀ v : Value, (store.level holder).get? name ≠ some v.toDatum)
          ∧ ∀ e, (made.1.chain made.2).evaluate e = (made.1.chain id).evaluate e := by
  have older := built.parentsOlder
  refine ⟨?_, ?_, ?_⟩
  · intro id links above
    exact Nat.lt_irrefl id (older.ancestor?_lt above)
  · intro wanted start
    obtain ⟨links, ended, climbs⟩ := older.exists_climbs wanted start
    exact ⟨links, ended, climbs, fun _ _ other => climbs.unique other⟩
  · intro id present made
    have child : made.1.chain made.2 = (store.chain id).child := chain_child older present
    have kept : made.1.chain id = store.chain id := chain_child_of_present older present id
    refine ⟨older.climbs_depth id, ?_, ?_, ?_, ?_⟩
    · rw [child, kept]
      rfl
    · intro name v
      rw [Chain.lookup_eq_ok_iff, older.lookup?_eq_some_iff]
    · intro name
      rw [Chain.lookup_eq_error_iff, and_iff_left rfl, Option.eq_none_iff_forall_ne_some]
      simp only [ne_eq, older.lookup?_eq_some_iff]
      constructor
      · intro none links holder nearest v held
        exact none v ⟨links, holder, nearest, held⟩
      · rintro none v ⟨links, holder, nearest, held⟩
        exact none links holder nearest v held
    · intro e
      rw [child, kept, Chain.evaluate_child]

/-- A scope holds itself under a name that the root binds to a value, its child has a copy of that
binding, which hides the value from the scope inside, and the root holds the innermost scope. -/
theorem climbs_end_at_nearest_binding_hidden
    : let acts : List Act :=
        [.create (Level.ofList [("x", .boolean true)]) none, .create .empty (some 0),
          .bind 1 "x" (.scope 1), .child 1, .bind 2 "y" (.boolean false),
          .create (Level.ofList [("y", .boolean true)]) (some 2), .mergeBack 3 2,
          .bind 0 "inner" (.scope 3)]
      let store := acts.foldl perform {}
      let made := store.child 3
      (Performs {} acts store ∧ 3 < store.scopes.size)
      ∧ (store.ancestor? 3 3 = some 0 ∧ (store.chain 0).lookup "x" = .ok (.boolean true))
      ∧ (store.chain 3).lookup "x" = .error (.undefinedVariable "x")
      ∧ (∀ links holder,
          Nearest store (store.Binds "x") 3 links holder
          → ∀ v : Value, (store.level holder).get? "x" ≠ some v.toDatum)
      ∧ (∃ links holder,
          Nearest store (store.Binds "y") 3 links holder
          ∧ (store.level holder).get? "y" = some (Value.boolean false).toDatum)
      ∧ (made.1.chain made.2).depth = 4
      ∧ ∀ e, (made.1.chain made.2).evaluate e = (made.1.chain 3).evaluate e := by
  intro acts store made
  have built : Performs {} acts store :=
    .cons (by decide) (.cons (by decide) (.cons (by decide +kernel) (.cons (by decide +kernel)
      (.cons (by decide +kernel) (.cons (by decide +kernel) (.cons (by decide +kernel)
        (.cons (by decide +kernel) (.nil _))))))))
  have present : 3 < store.scopes.size := by decide +kernel
  have hidden : (store.chain 3).lookup "x" = .error (.undefinedVariable "x") :=
    Chain.lookup_eq_error_iff.mpr ⟨by decide +kernel, rfl⟩
  have merged : (store.chain 3).lookup "y" = .ok (.boolean false) :=
    Chain.lookup_eq_ok_iff.mpr (by decide +kernel)
  have farther : (store.chain 0).lookup "x" = .ok (.boolean true) :=
    Chain.lookup_eq_ok_iff.mpr (by decide +kernel)
  obtain ⟨_, _, scopes⟩ := climbs_end_at_nearest_binding built
  obtain ⟨_, deeper, gives, undefined, alike⟩ := scopes 3 present
  refine ⟨⟨built, present⟩, ⟨by decide +kernel, farther⟩, hidden,
    (undefined "x").mp hidden, (gives "y" _).mp merged, ?_, alike⟩
  rw [deeper]
  decide +kernel

end Store

end ScopedWhile
