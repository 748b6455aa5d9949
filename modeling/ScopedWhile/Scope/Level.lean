import ScopedWhile.Datum.Basic

/-!
One level of a scope: names with the data bound to them, in the order of their first binding.
Binding a name again keeps its place. Main statements: what each operation does to the sequence of
names and to the datum of every name.
-/

namespace ScopedWhile

structure Level where
  entries : List (String × Datum)
  distinct : (entries.map Prod.fst).Nodup

namespace Level

/-- Levels with the same entries are the same. -/
@[ext]
theorem ext {a b : Level} (same : a.entries = b.entries)
    : a = b := by
  cases a; cases b; cases same; rfl

def empty : Level where
  entries := []
  distinct := by simp

def names (level : Level) : List String :=
  level.entries.map Prod.fst

def contains (level : Level) (name : String) : Bool :=
  decide (name ∈ level.names)

def get? (level : Level) (name : String) : Option Datum :=
  level.entries.lookup name

/-- Binds a name: in its place if it is bound already, and otherwise after all others. -/
def set (level : Level) (name : String) (datum : Datum) : Level :=
  if bound : name ∈ level.names then
    { entries := level.entries.map fun entry =>
        (entry.1, if entry.1 = name then datum else entry.2)
      distinct := by
        rw [List.map_map]
        exact level.distinct }
  else
    { entries := level.entries ++ [(name, datum)]
      distinct := by
        rw [List.map_append, List.nodup_append]
        refine ⟨level.distinct, by simp, ?_⟩
        intro old member new last same
        obtain rfl := List.mem_singleton.mp last
        exact bound (same ▸ member) }

def erase (level : Level) (name : String) : Level where
  entries := level.entries.filter fun entry => entry.1 ≠ name
  distinct := level.distinct.sublist (List.filter_sublist.map Prod.fst)

/-- A level with the given bindings; a name that comes again takes the later datum. -/
def ofList (bindings : List (String × Datum)) : Level :=
  bindings.foldl (fun level binding => level.set binding.1 binding.2) empty

/-- Takes over the data that an inner level has for the names bound here; what the inner level
binds beyond them is dropped. -/
def mergeBack (level inner : Level) : Level where
  entries := level.entries.map fun entry => (entry.1, (inner.get? entry.1).getD entry.2)
  distinct := by
    rw [List.map_map]
    exact level.distinct

-----------------------------------------------------------------------------------------
-- Names and data after each operation
-----------------------------------------------------------------------------------------

@[simp]
theorem contains_iff {level : Level} {name : String}
    : level.contains name = true ↔ name ∈ level.names := by
  simp [contains]

/-- A level has a datum for exactly the names that it binds. -/
theorem get?_isSome_iff {level : Level} {name : String}
    : (level.get? name).isSome ↔ name ∈ level.names := by
  obtain ⟨entries, distinct⟩ := level
  simp only [get?, names]
  clear distinct
  induction entries with
  | nil => simp
  | cons entry rest ih =>
      obtain ⟨key, datum⟩ := entry
      rw [List.lookup_cons]
      by_cases same : name = key
      · simp [same]
      · rw [beq_eq_false_iff_ne.mpr same]
        simp only [List.map_cons, List.mem_cons, same, false_or]
        exact ih

@[simp]
theorem names_empty
    : empty.names = [] :=
  rfl

/-- Setting a bound name changes its datum in place. -/
theorem entries_set_of_mem {level : Level} {name : String} {datum : Datum}
    (bound : name ∈ level.names)
    : (level.set name datum).entries
      = level.entries.map fun entry => (entry.1, if entry.1 = name then datum else entry.2) := by
  rw [set, dif_pos bound]

/-- Setting a new name adds it at the end. -/
theorem entries_set_of_notMem {level : Level} {name : String} {datum : Datum}
    (fresh : name ∉ level.names)
    : (level.set name datum).entries = level.entries ++ [(name, datum)] := by
  rw [set, dif_neg fresh]

theorem names_set_of_mem {level : Level} {name : String} {datum : Datum}
    (bound : name ∈ level.names)
    : (level.set name datum).names = level.names := by
  rw [names, entries_set_of_mem bound, List.map_map]
  rfl

theorem names_set_of_notMem {level : Level} {name : String} {datum : Datum}
    (fresh : name ∉ level.names)
    : (level.set name datum).names = level.names ++ [name] := by
  rw [names, entries_set_of_notMem fresh, List.map_append]
  rfl

/-- Merging back changes no names. -/
@[simp]
theorem names_mergeBack (level inner : Level)
    : (level.mergeBack inner).names = level.names := by
  simp only [mergeBack, names, List.map_map]
  rfl

private theorem lookup_map_data (entries : List (String × Datum)) (name : String)
    (f : String → Datum → Datum)
    : (entries.map fun entry => (entry.1, f entry.1 entry.2)).lookup name
      = (entries.lookup name).map (f name) := by
  induction entries with
  | nil => rfl
  | cons entry rest ih =>
      obtain ⟨key, datum⟩ := entry
      rw [List.map_cons, List.lookup_cons, List.lookup_cons]
      by_cases same : name = key
      · simp [same]
      · simp [beq_eq_false_iff_ne.mpr same, ih]

/-- The datum of every name after a binding. -/
theorem get?_set (level : Level) (name other : String) (datum : Datum)
    : (level.set name datum).get? other
      = if other = name then some datum else level.get? other := by
  by_cases bound : name ∈ level.names
  · rw [get?, entries_set_of_mem bound]
    rw [lookup_map_data level.entries other fun key old => if key = name then datum else old]
    by_cases same : other = name
    · subst same
      obtain ⟨old, held⟩ := Option.isSome_iff_exists.mp (get?_isSome_iff.mpr bound)
      rw [get?] at held
      simp [held]
    · simp [same, get?]
  · rw [get?, entries_set_of_notMem bound, List.lookup_append]
    by_cases same : other = name
    · subst same
      have absent : level.entries.lookup other = none := by
        cases held : level.entries.lookup other with
        | none => rfl
        | some old => exact absurd (get?_isSome_iff.mp (by rw [get?, held]; rfl)) bound
      simp [absent]
    · simp [List.lookup_cons, beq_eq_false_iff_ne.mpr same, same, get?]

/-- The datum of every name after merging back: the inner one where both levels bind it. -/
theorem get?_mergeBack (level inner : Level) (name : String)
    : (level.mergeBack inner).get? name
      = (level.get? name).map fun old => (inner.get? name).getD old :=
  lookup_map_data level.entries name fun key old => (inner.get? key).getD old

end Level

end ScopedWhile
