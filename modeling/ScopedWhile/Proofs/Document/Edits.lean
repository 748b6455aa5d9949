import Mathlib.Logic.Relation
import ScopedWhile.Proofs.Document.Comparison

/-!
What reading looks at. An object is asked for its tag and then for the fields of the kind that the
tag selects, each up to the first spelling that is present. Whatever else stands in an object, at any
depth, can be changed without changing what is read.
-/

namespace ScopedWhile.Document

-----------------------------------------------------------------------------------------
-- The keys that are looked up
-----------------------------------------------------------------------------------------

/-- The spellings that are looked up for a field: those up to the first one present. -/
def Fields.consulted (fields : Fields) : List String → List String
  | [] => []
  | name :: rest =>
      if (fields.lookup name).isSome then [name] else name :: Fields.consulted fields rest

/-- The kind of node that the tag of an object selects, where that kind may stand. -/
def Fields.kind? (fields : Fields) : Option NodeKind :=
  (fields.lookup "kind").bind fun tag =>
    (NodeKind.ofTag? .expr tag).or (NodeKind.ofTag? .stmt tag)

/-- The keys that are looked up in an object. -/
def Fields.seen (fields : Fields) : List String :=
  "kind" :: match fields.kind? with
    | some kind => kind.fields.flatMap fun field => fields.consulted field.spellings
    | none => []

/-- An edit, at any depth: keys that are not looked up in an object are added, changed or removed. -/
inductive Edit : Datum → Datum → Prop where
  | keys {fields others : Fields}
      (kept : ∀ key ∈ fields.seen, others.lookup key = fields.lookup key)
    : Edit (.object fields) (.object others)
  | field {front back : Fields} {key : String} {d e : Datum} (below : Edit d e)
    : Edit (.object (front ++ (key, d) :: back)) (.object (front ++ (key, e) :: back))
  | item {front back : List Datum} {d e : Datum} (below : Edit d e)
    : Edit (.list (front ++ d :: back)) (.list (front ++ e :: back))
  | tupleItem {front back : List Datum} {d e : Datum} (below : Edit d e)
    : Edit (.tuple (front ++ d :: back)) (.tuple (front ++ e :: back))

/-- The same datum, or an edited one. -/
def Alike (d e : Datum) : Prop :=
  e = d ∨ Edit d e

/-- An edit below a key shows only in what that key is looked up for. -/
theorem lookup_edited (front back : Fields) (key name : String) (d e : Datum)
    : (front ++ (key, e) :: back).lookup name = (front ++ (key, d) :: back).lookup name
      ∨ (front ++ (key, d) :: back).lookup name = some d
        ∧ (front ++ (key, e) :: back).lookup name = some e := by
  induction front with
  | nil =>
      cases same : name == key with
      | true => exact Or.inr (by simp [List.lookup_cons, same])
      | false => exact Or.inl (by simp [List.lookup_cons, same])
  | cons entry front ih =>
      obtain ⟨other, held⟩ := entry
      cases same : name == other with
      | true => exact Or.inl (by simp [List.lookup_cons, same])
      | false => simpa [List.lookup_cons, same] using ih

/-- An edit of one item leaves the items alike one by one, by cases over where the item stands. -/
theorem getElem?_edited {front back : List Datum} {d e item other : Datum} {i : Nat}
    (edit : Edit d e) (found : (front ++ d :: back)[i]? = some item)
    (also : (front ++ e :: back)[i]? = some other)
    : Alike item other := by
  induction front generalizing i with
  | nil =>
      cases i with
      | zero =>
          obtain rfl := Option.some.inj found
          obtain rfl := Option.some.inj also
          exact Or.inr edit
      | succ i => exact Or.inl (Option.some.inj (also.symm.trans found))
  | cons entry front ih =>
      cases i with
      | zero => exact Or.inl (Option.some.inj (also.symm.trans found))
      | succ i => exact ih found also

/-- Only objects and lists are edited, and these are no tags. -/
theorem Edit.ofTag?_eq_none {d e : Datum} (edit : Edit d e) (role : Role)
    : NodeKind.ofTag? role d = none ∧ NodeKind.ofTag? role e = none := by
  cases edit <;> cases role <;> exact ⟨rfl, rfl⟩

/-- An edited object selects the same kind by its tag: a datum with something to edit inside is no
tag, before and after. -/
theorem Edit.tag {fields others : Fields} (edit : Edit (.object fields) (.object others))
    : (∀ role, (others.lookup "kind").bind (NodeKind.ofTag? role)
        = (fields.lookup "kind").bind (NodeKind.ofTag? role))
      ∧ (others.lookup "kind").isSome = (fields.lookup "kind").isSome := by
  cases edit with
  | keys kept =>
      rw [kept "kind" List.mem_cons_self]
      exact ⟨fun role => rfl, rfl⟩
  | @field front back key d e below =>
      rcases lookup_edited front back key "kind" d e with same | ⟨found, also⟩
      · rw [same]
        exact ⟨fun role => rfl, rfl⟩
      · rw [found, also]
        have noTag := below.ofTag?_eq_none
        exact ⟨fun role => (noTag role).2.trans (noTag role).1.symm, rfl⟩

/-- An edited object is a node of the same kind, with the edited fields. -/
theorem Edit.nodeOf?_eq {fields others : Fields} (edit : Edit (.object fields) (.object others))
    (role : Role)
    : nodeOf? role (.object others)
      = (nodeOf? role (.object fields)).map fun (kind, _) => (kind, others) := by
  simp only [nodeOf?, edit.tag.1 role, Option.map_map]
  rfl

theorem find?_cons (fields : Fields) (name : String) (rest : List String)
    : fields.find? (name :: rest) = match fields.lookup name with
        | some datum => some (name, datum)
        | none => fields.find? rest := by
  cases found : fields.lookup name <;> simp [Fields.find?, found]

/-- If the consulted spellings hold the same data, or edited ones, so does the field. -/
theorem find?_alike {fields others : Fields} {names : List String}
    (alike : ∀ name ∈ fields.consulted names, others.lookup name = fields.lookup name
      ∨ ∃ d e, fields.lookup name = some d ∧ others.lookup name = some e ∧ Edit d e)
    : (fields.find? names = none ∧ others.find? names = none)
      ∨ ∃ name d e, fields.find? names = some (name, d) ∧ others.find? names = some (name, e)
        ∧ Alike d e := by
  induction names with
  | nil => exact Or.inl ⟨rfl, rfl⟩
  | cons name rest ih =>
      rw [find?_cons, find?_cons]
      cases found : fields.lookup name with
      | some d =>
          simp only [Fields.consulted, found, Option.isSome_some, if_true, List.mem_singleton,
            forall_eq] at alike
          rcases alike with same | ⟨_, e, ⟨⟩, also, edit⟩
          · rw [same]
            exact Or.inr ⟨name, d, d, rfl, rfl, Or.inl rfl⟩
          · rw [also]
            exact Or.inr ⟨name, d, e, rfl, rfl, Or.inr edit⟩
      | none =>
          simp only [Fields.consulted, found, Option.isSome_none, Bool.false_eq_true, if_false,
            List.forall_mem_cons] at alike
          rcases alike.1 with same | ⟨_, _, ⟨⟩, -⟩
          rw [same]
          exact ih alike.2

/-- What is no node is edited to nothing that is one. -/
theorem Edit.noNode {d e : Datum} (edit : Edit d e) {role : Role} (noNode : nodeOf? role d = none)
    : nodeOf? role e = none := by
  cases edit with
  | keys kept => rw [(Edit.keys kept).nodeOf?_eq, noNode, Option.map_none]
  | field below => rw [(Edit.field below).nodeOf?_eq, noNode, Option.map_none]
  | item below => rfl
  | tupleItem below => rfl

/-- What is no node has the same problem after an edit. -/
theorem Edit.nodeProblem_eq {d e : Datum} (edit : Edit d e) (origin : Origin)
    : nodeProblem origin e = nodeProblem origin d := by
  cases edit with
  | keys kept => simp only [nodeProblem, (Edit.keys kept).tag.2]
  | field below => simp only [nodeProblem, (Edit.field below).tag.2]
  | item below => rfl
  | tupleItem below => rfl

/-- A datum without parts is read the same after an edit. -/
theorem Edit.flat {d e : Datum} (edit : Edit d e) (origin : Origin) {role : Role}
    (noNode : nodeOf? role d = none) (noItems : itemsOf? role d = none)
    : readAs origin role e = readAs origin role d := by
  cases role with
  | text | boolean | number | operator => cases edit <;> rfl
  | expr | stmt =>
      rw [readAs_of_noNode origin (by simp) noNode,
        readAs_of_noNode origin (by simp) (edit.noNode noNode), edit.nodeProblem_eq]
  | block =>
      change readStmts origin e = readStmts origin d
      cases edit with
      | keys kept => rw [readStmts_of_noItems origin rfl, readStmts_of_noItems origin rfl]
      | field below => rw [readStmts_of_noItems origin rfl, readStmts_of_noItems origin rfl]
      | item below => cases noItems
      | tupleItem below => cases noItems

/-- A tag decides the kind, since expressions and statements share none. -/
theorem Fields.kind?_of_tag {fields : Fields} {kind : NodeKind}
    (tagged : fields.lookup "kind" = some (.text kind.tag))
    : Fields.kind? fields = some kind := by
  rw [Fields.kind?, tagged, Option.bind_some]
  have known := NodeKind.ofTag?_eq_some.mpr ⟨rfl, (rfl : Datum.text kind.tag = .text kind.tag)⟩
  cases kind with
  | expr kind => exact congrArg (Option.or · _) known
  | stmt kind =>
      have noExpr : NodeKind.ofTag? .expr (.text kind.tag) = none := by cases kind <;> rfl
      change (NodeKind.ofTag? .expr (.text kind.tag)).or (NodeKind.ofTag? .stmt (.text kind.tag)) = _
      rw [noExpr, Option.none_or]
      exact known

/-- The fields of an edited node hold the same data, or edited ones. -/
theorem Edit.find?_alike {fields others : Fields} (edit : Edit (.object fields) (.object others))
    {kind : NodeKind} (isNode : nodeOf? kind.role (.object fields) = some (kind, fields))
    {field : Field} (listed : field ∈ kind.fields)
    : (fields.find? field.spellings = none ∧ others.find? field.spellings = none)
      ∨ ∃ name d e, fields.find? field.spellings = some (name, d)
        ∧ others.find? field.spellings = some (name, e) ∧ Alike d e := by
  apply Document.find?_alike
  intro name consulted
  cases edit with
  | keys kept =>
      obtain ⟨-, -, tagged⟩ := nodeOf?_eq_some.mp isNode
      refine Or.inl (kept name (List.mem_cons_of_mem _ ?_))
      rw [Fields.kind?_of_tag tagged]
      exact List.mem_flatMap.mpr ⟨field, listed, consulted⟩
  | @field front back key d e below =>
      rcases lookup_edited front back key name d e with same | ⟨found, also⟩
      · exact Or.inl same
      · exact Or.inr ⟨d, e, found, also, below⟩

/-- Edits are invisible to every reading: data without parts are read the same, and nodes and blocks
are looked up for the same parts, which are alike again. -/
theorem edit_comparison (origin : Origin)
    : Comparison origin origin fun _ f d e => f = id ∧ Alike d e where
  flat {role f d e} related noNode noItems := by
    obtain ⟨rfl, rfl | edit⟩ := related
    · exact (mapIssues_id _).symm
    · rw [mapIssues_id]
      exact edit.flat origin noNode noItems
  block {f d e items} related isBlock := by
    obtain ⟨rfl, alike⟩ := related
    have parts : ∃ others, itemsOf? .block e = some others ∧ others.length = items.length
        ∧ ∀ (i : Nat) item other, items[i]? = some item → others[i]? = some other → Alike item other := by
      rcases alike with rfl | edit
      · refine ⟨items, isBlock, rfl, fun i item other found also => ?_⟩
        exact Or.inl (Option.some.inj (also.symm.trans found))
      · cases edit with
        | keys kept => cases isBlock
        | field below => cases isBlock
        | item below =>
            obtain rfl := Option.some.inj isBlock
            exact ⟨_, rfl, by simp, fun i item other found also => getElem?_edited below found also⟩
        | tupleItem below =>
            obtain rfl := Option.some.inj isBlock
            exact ⟨_, rfl, by simp, fun i item other found also => getElem?_edited below found also⟩
    obtain ⟨others, alsoBlock, sameLength, each⟩ := parts
    refine ⟨others, alsoBlock, sameLength, fun i item other found also => ?_⟩
    exact ⟨id, ⟨rfl, each i item other found also⟩, fun issue => rfl⟩
  node {f kind d e fields} related isNode := by
    obtain ⟨rfl, alike⟩ := related
    have parts : ∃ others, nodeOf? kind.role e = some (kind, others)
        ∧ ∀ field ∈ kind.fields,
          (fields.find? field.spellings = none ∧ others.find? field.spellings = none)
          ∨ ∃ name d e, fields.find? field.spellings = some (name, d)
            ∧ others.find? field.spellings = some (name, e) ∧ Alike d e := by
      rcases alike with rfl | edit
      · refine ⟨fields, isNode, fun field listed => ?_⟩
        cases found : fields.find? field.spellings with
        | none => exact Or.inl ⟨rfl, rfl⟩
        | some entry => exact Or.inr ⟨entry.1, entry.2, entry.2, rfl, rfl, Or.inl rfl⟩
      · obtain ⟨rfl, -, -⟩ := nodeOf?_eq_some.mp isNode
        have object : ∃ others, e = .object others := by
          cases edit <;> exact ⟨_, rfl⟩
        obtain ⟨others, rfl⟩ := object
        refine ⟨others, ?_, fun field listed => edit.find?_alike isNode listed⟩
        rw [edit.nodeOf?_eq, isNode, Option.map_some]
    obtain ⟨others, alsoNode, each⟩ := parts
    refine ⟨others, id, alsoNode, fun issue => rfl, fun field listed => ?_⟩
    rcases each field listed with ⟨missing, alsoMissing⟩ | ⟨name, d, e, found, also, alike⟩
    · exact Or.inl ⟨missing, alsoMissing, rfl⟩
    · exact Or.inr ⟨name, d, name, e, id, found, also, ⟨rfl, alike⟩, fun issue => rfl⟩

/-- An edited datum is read to the same tree, or with the same issues. -/
theorem Edit.readAs_eq {d e : Datum} (edit : Edit d e) (origin : Origin) (role : Role)
    : readAs origin role e = readAs origin role d := by
  rw [(edit_comparison origin).readAs ⟨rfl, Or.inr edit⟩, mapIssues_id]

end ScopedWhile.Document
