import ScopedWhile.Scope.Chain

/-!
Levels seen through their names and data, which determine them. Merging back a level that has kept
the names of the level around it is the same as dropping its new names, what all data of a level
have in common outlasts binding and merging, and levels whose names are all bound further in are
never consulted by a lookup.
-/

namespace ScopedWhile

namespace Level

/-- The level with only those bindings whose names are listed. -/
def restrict (level : Level) (kept : List String) : Level where
  entries := level.entries.filter fun entry => entry.1 ∈ kept
  distinct := level.distinct.sublist (List.filter_sublist.map Prod.fst)

/-- A level has no datum for the names that it does not bind. -/
theorem get?_eq_none_iff {level : Level} {name : String}
    : level.get? name = none ↔ name ∉ level.names := by
  rw [← get?_isSome_iff]
  cases level.get? name <;> simp

/-- A level has a datum for every name that it binds. -/
theorem exists_get?_of_mem {level : Level} {name : String} (bound : name ∈ level.names)
    : ∃ datum, level.get? name = some datum :=
  Option.isSome_iff_exists.mp (get?_isSome_iff.mpr bound)

/-- What is bound after a binding is the new datum or was bound before. -/
theorem of_get?_set {level : Level} {name other : String} {datum found : Datum}
    (held : (level.set name datum).get? other = some found)
    : other = name ∧ found = datum ∨ other ≠ name ∧ level.get? other = some found := by
  rw [get?_set] at held
  by_cases same : other = name
  · rw [if_pos same] at held
    exact Or.inl ⟨same, (Option.some.inj held).symm⟩
  · rw [if_neg same] at held
    exact Or.inr ⟨same, held⟩

/-- Entries without a name have no datum for it. -/
private theorem lookup_absent {entries : List (String × Datum)} {name : String}
    (absent : name ∉ entries.map Prod.fst)
    : entries.lookup name = none := by
  apply List.lookup_eq_none_iff.mpr
  intro entry member
  have differs : name ≠ entry.1 :=
    fun same => absent (List.mem_map.mpr ⟨entry, member, same.symm⟩)
  simpa using differs

/-- Entries with the same names in the same order and the same data are the same, by induction over
them. -/
private theorem entries_determined {a b : List (String × Datum)}
    (distinct : (a.map Prod.fst).Nodup) (names : a.map Prod.fst = b.map Prod.fst)
    (data : ∀ name, a.lookup name = b.lookup name)
    : a = b := by
  induction a generalizing b with
  | nil => exact (List.map_eq_nil_iff.mp names.symm).symm
  | cons entry rest ih =>
      obtain ⟨name, datum⟩ := entry
      cases b with
      | nil => simp at names
      | cons entry' rest' =>
          obtain ⟨name', datum'⟩ := entry'
          simp only [List.map_cons, List.cons.injEq] at names
          obtain ⟨rfl, names⟩ := names
          obtain ⟨fresh, distinct⟩ := List.nodup_cons.mp distinct
          have head : datum = datum' := by simpa using data name
          have tail : rest = rest' := by
            refine ih distinct names fun other => ?_
            by_cases same : other = name
            · -- The head's name occurs in neither rest, so both lookups fail.
              subst same
              rw [lookup_absent fresh, lookup_absent (names ▸ fresh)]
            · simpa [List.lookup_cons, beq_eq_false_iff_ne.mpr same] using data other
          rw [head, tail]

/-- Levels with the same names in the same order and the same data are the same. -/
theorem ext_get? {a b : Level} (names : a.names = b.names)
    (data : ∀ name, a.get? name = b.get? name)
    : a = b :=
  ext (entries_determined a.distinct names data)

-----------------------------------------------------------------------------------------
-- Merging back a level that has only grown drops its new names
-----------------------------------------------------------------------------------------

/-- A restricted level has the names that are kept, in their order. -/
theorem names_restrict (level : Level) (kept : List String)
    : (level.restrict kept).names = level.names.filter fun name => name ∈ kept := by
  simp only [restrict, names, List.filter_map]
  rfl

/-- A restricted level has the data of the names that are kept. -/
theorem get?_restrict (level : Level) (kept : List String) (name : String)
    : (level.restrict kept).get? name = if name ∈ kept then level.get? name else none := by
  simp only [restrict, get?]
  induction level.entries with
  | nil => simp
  | cons entry rest ih =>
      obtain ⟨key, datum⟩ := entry
      by_cases same : name = key
      · subst same
        by_cases member : name ∈ kept
        · simp [member]
        · simp [member, ih]
      · by_cases member : key ∈ kept <;>
          simp [member, List.lookup_cons, beq_eq_false_iff_ne.mpr same, ih]

/-- Filtering a list without repetitions by one of its prefixes leaves the prefix. -/
private theorem filter_mem_append {kept fresh : List String} (distinct : (kept ++ fresh).Nodup)
    : (kept ++ fresh).filter (fun name => name ∈ kept) = kept := by
  have disjoint := (List.nodup_append.mp distinct).2.2
  have all : kept.filter (fun name => name ∈ kept) = kept :=
    List.filter_eq_self.mpr fun name member => by simpa using member
  have none : fresh.filter (fun name => name ∈ kept) = [] :=
    List.filter_eq_nil_iff.mpr fun name member kept =>
      disjoint name (by simpa using kept) name member rfl
  rw [List.filter_append, all, none, List.append_nil]

/-- A block that only appends names to those of its surroundings merges back by dropping them. -/
theorem mergeBack_eq_restrict {level inner : Level} (grown : level.names <+: inner.names)
    : level.mergeBack inner = inner.restrict level.names := by
  obtain ⟨fresh, split⟩ := grown
  apply ext_get?
  · rw [names_mergeBack, names_restrict, ← split, filter_mem_append]
    rw [split]
    exact inner.distinct
  · intro name
    rw [get?_mergeBack, get?_restrict]
    by_cases bound : name ∈ level.names
    · have inside : name ∈ inner.names := split ▸ List.mem_append_left fresh bound
      obtain ⟨old, held⟩ := exists_get?_of_mem bound
      obtain ⟨new, found⟩ := exists_get?_of_mem inside
      simp [bound, held, found]
    · simp [bound, get?_eq_none_iff.mpr bound]

-----------------------------------------------------------------------------------------
-- What all data of a level have in common
-----------------------------------------------------------------------------------------

/-- Every datum that a level binds has the property. -/
def Holds (property : Datum → Prop) (level : Level) : Prop :=
  ∀ name datum, level.get? name = some datum → property datum

namespace Holds

variable {property : Datum → Prop} {level inner : Level}

theorem empty
    : Level.empty.Holds property := by
  intro name datum held
  simp [get?, Level.empty] at held

/-- Setting a datum with the property keeps it for the level. -/
theorem set (holds : level.Holds property) (name : String) {datum : Datum} (new : property datum)
    : (level.set name datum).Holds property := by
  intro other found held
  rcases of_get?_set held with ⟨_, written⟩ | ⟨_, old⟩
  · exact written ▸ new
  · exact holds other found old

/-- Merging back keeps a property that both levels have. -/
theorem mergeBack (holds : level.Holds property) (inside : inner.Holds property)
    : (level.mergeBack inner).Holds property := by
  intro name datum held
  rw [get?_mergeBack, Option.map_eq_some_iff] at held
  obtain ⟨old, before, rfl⟩ := held
  cases after : inner.get? name with
  | none => exact holds name old before
  | some new => exact inside name new after

end Holds

end Level

/-- Every name that one of the levels binds is bound by the given level. -/
def Level.Covers (level : Level) (hidden : List Level) : Prop :=
  ∀ other ∈ hidden, other.names ⊆ level.names

namespace Level.Covers

theorem nil (level : Level)
    : level.Covers [] := by
  simp [Covers]

/-- A copy of the current level is covered by the level itself. -/
theorem child {level : Level} {hidden : List Level} (covers : level.Covers hidden)
    : level.Covers (level :: hidden) := by
  intro other member
  rcases List.mem_cons.mp member with rfl | member
  · exact List.Subset.refl _
  · exact covers other member

/-- A level with more names covers the same levels. -/
theorem mono {level grown : Level} {hidden : List Level} (covers : level.Covers hidden)
    (names : level.names ⊆ grown.names)
    : grown.Covers hidden :=
  fun other member => List.Subset.trans (covers other member) names

end Level.Covers

/-- A chain finds a name in its first level if that binds it. -/
theorem Chain.lookup?_of_get? {level : Level} {name : String} {datum : Datum}
    (held : level.get? name = some datum) (outer : List Level)
    : Chain.lookup? { level, outer } name = datum.toValue? := by
  simp [lookup?, nearest?, levels, held]

/-- Levels covered by the current one can be left out of a chain. -/
theorem Chain.lookup?_covered {level : Level} {hidden : List Level} (covers : level.Covers hidden)
    (outer : List Level) (name : String)
    : Chain.lookup? { level, outer := hidden ++ outer } name
      = Chain.lookup? { level, outer } name := by
  simp only [lookup?, nearest?, levels, List.findSome?_cons, List.findSome?_append]
  cases held : level.get? name with
  | some datum => rfl
  | none =>
      have unbound : hidden.findSome? (fun other => other.get? name) = none := by
        rw [List.findSome?_eq_none_iff]
        intro other member
        apply Level.get?_eq_none_iff.mpr
        exact fun bound => Level.get?_eq_none_iff.mp held (covers other member bound)
      rw [unbound]
      rfl

end ScopedWhile
