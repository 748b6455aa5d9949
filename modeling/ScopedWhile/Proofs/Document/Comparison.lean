import ScopedWhile.Proofs.Document.Schema

/-!
Two readings side by side. The data may differ, and so may their origins, as long as they correspond
part by part; then both readings succeed with the same tree, or the issues of the second are those of
the first under a map that goes with the correspondence.
-/

namespace ScopedWhile

/-- Changes every issue of a reading. -/
def Checked.mapIssues {α : Type} (f : Issue → Issue) : Checked α → Checked α
  | .ok tree => .ok tree
  | .error issues => .error (issues.map f)

namespace Document

section
variable {α β : Type} {f g : Issue → Issue}

theorem mapIssues_id (checked : Checked α)
    : checked.mapIssues id = checked := by
  cases checked with
  | ok tree => rfl
  | error issues => exact congrArg Except.error (List.map_id issues)

/-- A reading without parts is unchanged by what keeps issues with an empty path. -/
theorem mapIssues_flat {checked : Checked α} (flat : Flat checked)
    (kept : ∀ problem, f { problem, path := [] } = { problem, path := [] })
    : checked.mapIssues f = checked := by
  rcases flat with ⟨tree, rfl⟩ | ⟨problem, -, rfl⟩
  · rfl
  · exact congrArg (fun issue => Except.error [issue]) (kept problem)

/-- Changes of the issues and of the tree do not interfere. -/
theorem mapIssues_map (checked : Checked α) (h : α → β)
    : Checked.mapIssues f (checked.map h) = (checked.mapIssues f).map h := by
  cases checked <;> rfl

/-- The issues of two readings are changed one by one. -/
theorem mapIssues_both (first : Checked α) (second : Checked β)
    : (first.both second).mapIssues f = (first.mapIssues f).both (second.mapIssues f) := by
  cases first <;> cases second <;> simp [Checked.both, Checked.mapIssues]

/-- Two maps of issues agree on what lies below a segment, which the first of them may change. -/
def Commutes (f g : Issue → Issue) (segment image : Segment) : Prop :=
  ∀ issue : Issue, f (issue.under segment) = (g issue).under image

/-- A change of issues passes under a segment, which it may replace. -/
theorem mapIssues_under {segment image : Segment} (commutes : Commutes f g segment image)
    (checked : Checked α)
    : (checked.under segment).mapIssues f = (checked.mapIssues g).under image := by
  cases checked with
  | ok tree => rfl
  | error issues =>
      have same : (issues.map (Issue.under segment)).map f = (issues.map g).map (Issue.under image) := by
        rw [List.map_map, List.map_map]
        exact List.map_congr_left fun issue _ => commutes issue
      exact congrArg Except.error same

end

/-- A relation on data that are read in one role, with the change of the issues. It is kept from data
to their parts, and data without parts give the same with their issues changed. -/
structure Comparison (before after : Origin)
    (Related : Role → (Issue → Issue) → Datum → Datum → Prop)
    : Prop where
  flat {role : Role} {f : Issue → Issue} {d e : Datum} (related : Related role f d e)
      (noNode : nodeOf? role d = none) (noItems : itemsOf? role d = none)
    : readAs after role e = (readAs before role d).mapIssues f
  block {f : Issue → Issue} {d e : Datum} {items : List Datum} (related : Related .block f d e)
      (isBlock : itemsOf? .block d = some items)
    : ∃ others, itemsOf? .block e = some others
      ∧ others.length = items.length
      ∧ ∀ i item other, items[i]? = some item → others[i]? = some other
        → ∃ g, Related .stmt g item other ∧ Commutes f g (.index i) (.index i)
  node {f : Issue → Issue} {kind : NodeKind} {d e : Datum} {fields : Fields}
      (related : Related kind.role f d e) (isNode : nodeOf? kind.role d = some (kind, fields))
    : ∃ others g, nodeOf? kind.role e = some (kind, others)
      ∧ Commutes f g (.name kind.tag) (.name kind.tag)
      ∧ ∀ field ∈ kind.fields,
        (fields.find? field.spellings = none ∧ others.find? field.spellings = none
          ∧ g { problem := .fieldMissing, path := [.name field.name] }
            = { problem := .fieldMissing, path := [.name field.name] })
        ∨ ∃ name datum image other h, fields.find? field.spellings = some (name, datum)
          ∧ others.find? field.spellings = some (image, other)
          ∧ Related field.role h datum other
          ∧ Commutes g h (.name name) (.name image)

namespace Comparison

variable {before after : Origin} {Related : Role → (Issue → Issue) → Datum → Datum → Prop}

/-- Blocks of equal length are read alike if their items are, by induction over the items. -/
theorem readItems {f : Issue → Issue} {index : Nat} {items others : List Datum}
    (sameLength : others.length = items.length)
    (each : ∀ i item other, items[i]? = some item → others[i]? = some other
      → ∃ g, readStmt after other = (readStmt before item).mapIssues g
        ∧ Commutes f g (.index (index + i)) (.index (index + i)))
    : readItems after index others = (readItems before index items).mapIssues f := by
  induction items generalizing index others with
  | nil =>
      obtain rfl := List.length_eq_zero_iff.mp sameLength
      simp only [Document.readItems]
      rfl
  | cons item items ih =>
      obtain ⟨other, others, rfl⟩ := List.exists_cons_of_length_eq_add_one sameLength
      obtain ⟨g, same, commutes⟩ := each 0 item other rfl rfl
      have rest := @ih (index + 1) others (Nat.succ.inj sameLength) fun i item other found also => by
        obtain ⟨g, same, commutes⟩ := each (i + 1) item other found also
        refine ⟨g, same, ?_⟩
        rwa [Nat.add_assoc, Nat.add_comm 1]
      simp only [Document.readItems, mapIssues_map, mapIssues_both, rest, same]
      rw [Nat.add_zero] at commutes
      rw [mapIssues_under commutes]

/-- Nodes are read alike if their fields are, by induction over the row. -/
theorem readRow {g : Issue → Issue} {fields others : Fields} {row : List Field}
    (each : ∀ field ∈ row, field.read after others = (field.read before fields).mapIssues g)
    : readRow after others row = (readRow before fields row).mapIssues g := by
  induction row with
  | nil => rfl
  | cons field rest ih =>
      have first := each field List.mem_cons_self
      have later := ih fun field listed => each field (List.mem_cons_of_mem _ listed)
      cases rest with
      | nil => exact first
      | cons next rest =>
          calc (field.read after others).both (Document.readRow after others (next :: rest))
              = ((field.read before fields).mapIssues g).both
                  ((Document.readRow before fields (next :: rest)).mapIssues g) := by
                rw [first, later]
            _ = _ := (mapIssues_both _ _).symm

/-- Data that correspond are read to the same tree, or with corresponding issues. -/
theorem readAs (comparison : Comparison before after Related) {role : Role} {f : Issue → Issue}
    {d e : Datum} (related : Related role f d e)
    : readAs after role e = (readAs before role d).mapIssues f := by
  induction role, d using reading_induction generalizing f e with
  | flat role d noNode noItems => exact comparison.flat related noNode noItems
  | block d items isBlock ih =>
      obtain ⟨others, alsoBlock, sameLength, each⟩ := comparison.block related isBlock
      rw [readAs_items isBlock, readAs_items alsoBlock]
      refine readItems sameLength fun i item other found also => ?_
      obtain ⟨g, relatedItems, commutes⟩ := each i item other found also
      rw [Nat.zero_add]
      exact ⟨g, ih item (List.mem_of_getElem? found) relatedItems, commutes⟩
  | node kind d fields isNode ih =>
      obtain ⟨others, g, alsoNode, commutes, each⟩ := comparison.node related isNode
      have row : Document.readRow after others kind.fields
          = (Document.readRow before fields kind.fields).mapIssues g := by
        refine readRow fun field listed => ?_
        rcases each field listed with ⟨missing, alsoMissing, kept⟩
          | ⟨name, datum, image, other, h, found, alsoFound, relatedData, below⟩
        · cases absent : field.absent with
          | some tree => simp only [Field.read, missing, alsoMissing, absent, Checked.mapIssues]
          | none =>
              simp only [Field.read, missing, alsoMissing, absent]
              exact congrArg (fun issue => Except.error [issue]) kept.symm
        · simp only [Field.read, found, alsoFound]
          rw [ih field listed name datum found relatedData, mapIssues_under below]
      rw [readAs_node isNode, readAs_node alsoNode, mapIssues_under commutes, mapIssues_map, row]

end Comparison

end Document

end ScopedWhile
