import ScopedWhile.Proofs.Document.Schema

/-!
The list of issues. A block reports the issues of its items one after the other and a node those of
its fields, each below its own segments of the path. So every path leads to a datum of the document,
or to the object that lacks a field, the paths come in the order of the document, and what is
reported below a path is what the datum there reports alone.
-/

namespace ScopedWhile

/-- An issue as it is seen from a path, if it lies there or below. -/
def Issue.below? : List Segment → Issue → Option Issue
  | [], issue => some issue
  | segment :: rest, { problem, path := first :: path } =>
      if first = segment then below? rest { problem, path } else none
  | _ :: _, { problem := _, path := [] } => none

def Checked.issues {α : Type} : Checked α → List Issue
  | .ok _ => []
  | .error issues => issues

/-- The datum at a path: by the items of lists and the fields of objects. -/
def Datum.follow : Datum → List Segment → Option Datum
  | d, [] => some d
  | .list items, .index i :: rest => items[i]?.bind fun item => item.follow rest
  | .tuple items, .index i :: rest => items[i]?.bind fun item => item.follow rest
  | .object fields, .name key :: rest => (fields.lookup key).bind fun datum => datum.follow rest
  | _, _ => none

namespace Document

-----------------------------------------------------------------------------------------
-- The issues of a whole are those of its parts
-----------------------------------------------------------------------------------------

section
variable {α β : Type}

theorem issues_issue (problem : Problem)
    : (Checked.issue problem : Checked α).issues = [{ problem, path := [] }] :=
  rfl

theorem issues_map (checked : Checked α) (f : α → β)
    : Checked.issues (checked.map f) = checked.issues := by
  cases checked <;> rfl

/-- A segment goes in front of every path. -/
theorem issues_under (checked : Checked α) (segment : Segment)
    : (checked.under segment).issues = checked.issues.map (Issue.under segment) := by
  cases checked <;> rfl

/-- The issues of the first reading come before those of the second. -/
theorem issues_both (first : Checked α) (second : Checked β)
    : (first.both second).issues = first.issues ++ second.issues := by
  cases first <;> cases second <;> simp [Checked.both, Checked.issues]

end

/-- What a node reports for one of its fields. -/
def Field.issues (origin : Origin) (fields : Fields) (field : Field) : List Issue :=
  match fields.find? field.spellings with
  | some (name, datum) => (readAs origin field.role datum).issues.map (Issue.under (.name name))
  | none => if field.absent.isSome then [] else [{ problem := .fieldMissing, path := [.name field.name] }]

/-- Reading a field reports what the table says of it. -/
theorem Field.issues_read (origin : Origin) (fields : Fields) (field : Field)
    : (field.read origin fields).issues = field.issues origin fields := by
  cases found : fields.find? field.spellings with
  | some entry =>
      simp only [Field.read, Field.issues, found]
      exact issues_under _ _
  | none => cases absent : field.absent <;> simp only [Field.read, Field.issues, found, absent] <;> rfl

/-- A row reports its fields in their order, by induction over the row. -/
theorem issues_readRow (origin : Origin) (fields : Fields) (row : List Field)
    : (readRow origin fields row).issues = row.flatMap (Field.issues origin fields) := by
  induction row with
  | nil => rfl
  | cons field rest ih =>
      cases rest with
      | nil => exact (Field.issues_read origin fields field).trans (List.append_nil _).symm
      | cons next rest =>
          calc (readRow origin fields (field :: next :: rest)).issues
              = (field.read origin fields).issues ++ (readRow origin fields (next :: rest)).issues :=
                issues_both _ _
            _ = field.issues origin fields ++ (next :: rest).flatMap (Field.issues origin fields) := by
                rw [Field.issues_read, ih]

/-- A node reports its fields in their order, all below its tag. -/
theorem issues_node {origin : Origin} {role : Role} {d : Datum} {kind : NodeKind} {fields : Fields}
    (node : nodeOf? role d = some (kind, fields))
    : (readAs origin role d).issues
      = kind.fields.flatMap fun field =>
          (field.issues origin fields).map (Issue.under (.name kind.tag)) := by
  obtain ⟨-, rfl, -⟩ := nodeOf?_eq_some.mp node
  rw [readAs_node node, issues_under, issues_map, issues_readRow, List.map_flatMap]

/-- Items report one after the other, each below its index. -/
theorem issues_readItems (origin : Origin) (index : Nat) (items : List Datum)
    : (readItems origin index items).issues
      = (items.zipIdx index).flatMap fun (item, i) =>
          (readStmt origin item).issues.map (Issue.under (.index i)) := by
  induction items generalizing index with
  | nil =>
      rw [readItems]
      rfl
  | cons item rest ih =>
      rw [readItems, issues_map, issues_both, issues_under, ih]
      rfl

/-- A block reports its items in their order. -/
theorem issues_block {origin : Origin} {d : Datum} {items : List Datum}
    (block : itemsOf? .block d = some items)
    : (readAs origin .block d).issues
      = items.zipIdx.flatMap fun (item, i) =>
          (readStmt origin item).issues.map (Issue.under (.index i)) :=
  (congrArg Checked.issues (readAs_items block)).trans (issues_readItems origin 0 items)

-----------------------------------------------------------------------------------------
-- Paths lead to data
-----------------------------------------------------------------------------------------

/-- A path without the tags in it. The tag of a node stands before each field that is entered. -/
def withoutTags : List Segment → List Segment
  | .name _ :: .name field :: rest => .name field :: withoutTags rest
  | .index i :: rest => .index i :: withoutTags rest
  | path => path

/-- Up to a location, the tags in a path pair up with fields, so that they are taken out piece by
piece. -/
theorem Holds.withoutTags_append {role innerRole : Role} {d inner : Datum} {path : List Segment}
    (holds : Holds role d path innerRole inner) (rest : List Segment)
    : withoutTags (path ++ rest) = withoutTags path ++ withoutTags rest := by
  induction holds with
  | here => rfl
  | item _ _ _ ih => simpa [withoutTags] using ih
  | field _ _ _ _ ih => simpa [withoutTags] using ih

/-- A location is reached by the items and fields on its path. -/
theorem Holds.follow {role innerRole : Role} {d inner : Datum} {path : List Segment}
    (holds : Holds role d path innerRole inner)
    : d.follow (withoutTags path) = some inner := by
  induction holds with
  | here => rfl
  | item block found _ ih =>
      obtain ⟨-, rfl | rfl⟩ := itemsOf?_eq_some.mp block
      · simp [withoutTags, Datum.follow, found, ih]
      · simp [withoutTags, Datum.follow, found, ih]
  | field node _ found _ ih =>
      obtain ⟨rfl, -⟩ := nodeOf?_eq_some.mp node
      have present := (lookup_of_find? found).2
      simp only [withoutTags, Datum.follow, present, Option.bind_some, ih]

/-- What a reading reports on its own account, and not for one of its parts. -/
inductive OwnIssue (origin : Origin) (role : Role) (d : Datum) : Issue → Prop where
  | flat {problem : Problem} (other : problem ≠ .fieldMissing)
      (read : readAs origin role d = .issue problem)
    : OwnIssue origin role d { problem, path := [] }
  | missing {kind : NodeKind} {fields : Fields} {field : Field}
      (node : nodeOf? role d = some (kind, fields))
      (listed : field ∈ kind.fields)
      (missing : ∀ spelling ∈ field.spellings, fields.lookup spelling = none)
    : OwnIssue origin role d
        { problem := .fieldMissing, path := [.name kind.tag, .name field.name] }

/-- Every issue is reported by one datum on its own account, found at the front part of the path. By
induction over the reading. -/
theorem exists_ownIssue {origin : Origin} (role : Role) (d : Datum) {issue : Issue}
    (reported : issue ∈ (readAs origin role d).issues)
    : ∃ path innerRole inner own, Holds role d path innerRole inner
      ∧ OwnIssue origin innerRole inner own
      ∧ issue = { own with path := path ++ own.path } := by
  induction role, d using reading_induction generalizing issue with
  | flat role d noNode noItems =>
      rcases readAs_flat origin noNode noItems with ⟨tree, read⟩ | ⟨problem, other, read⟩
      · rw [read] at reported
        cases reported
      · rw [read, issues_issue, List.mem_singleton] at reported
        exact ⟨[], role, d, _, .here, .flat other read, reported⟩
  | block d items block ih =>
      rw [issues_block block] at reported
      obtain ⟨⟨item, i⟩, member, ofItem⟩ := List.mem_flatMap.mp reported
      obtain ⟨below, inItem, rfl⟩ := List.mem_map.mp ofItem
      have found := List.mk_mem_zipIdx_iff_getElem?.mp member
      obtain ⟨path, innerRole, inner, own, holds, isOwn, rfl⟩ :=
        ih item (List.mem_of_getElem? found) inItem
      exact ⟨.index i :: path, innerRole, inner, own, .item block found holds, isOwn, rfl⟩
  | node kind d fields node ih =>
      rw [issues_node node] at reported
      obtain ⟨field, listed, ofField⟩ := List.mem_flatMap.mp reported
      obtain ⟨inField, ofRead, rfl⟩ := List.mem_map.mp ofField
      unfold Field.issues at ofRead
      split at ofRead
      next name datum found =>
        obtain ⟨below, inDatum, rfl⟩ := List.mem_map.mp ofRead
        obtain ⟨path, innerRole, inner, own, holds, isOwn, rfl⟩ :=
          ih field listed name datum found inDatum
        exact ⟨_, innerRole, inner, own, .field node listed found holds, isOwn, rfl⟩
      next missing =>
        split at ofRead
        · cases ofRead
        · obtain rfl := List.mem_singleton.mp ofRead
          exact ⟨[], kind.role, d, _, .here, .missing node listed (find?_eq_none.mp missing), rfl⟩

-----------------------------------------------------------------------------------------
-- Paths come in the order of the document
-----------------------------------------------------------------------------------------

/-- The place of a field among those of its kind, by any of its spellings. -/
def NodeKind.rank (kind : NodeKind) (name : String) : Nat :=
  kind.fields.findIdx fun field => field.spellings.contains name

/-- The order of a document, depth first: where two paths part, items go by their index and the
fields of a node by their place in the table. -/
inductive Before : List Segment → List Segment → Prop where
  | items {i j : Nat} {p q : List Segment} (less : i < j)
    : Before (.index i :: p) (.index j :: q)
  | fields {kind : NodeKind} {a b : String} {p q : List Segment} (less : kind.rank a < kind.rank b)
    : Before (.name kind.tag :: .name a :: p) (.name kind.tag :: .name b :: q)
  | item {i : Nat} {p q : List Segment} (below : Before p q)
    : Before (.index i :: p) (.index i :: q)
  | field {tag name : String} {p q : List Segment} (below : Before p q)
    : Before (.name tag :: .name name :: p) (.name tag :: .name name :: q)

/-- Paths that part are not prefixes of each other. -/
theorem Before.not_prefix {p q : List Segment} (before : Before p q)
    : ¬ p <+: q ∧ ¬ q <+: p := by
  induction before with
  | items less =>
      simp only [List.cons_prefix_cons, Segment.index.injEq]
      omega
  | fields less =>
      simp only [List.cons_prefix_cons, Segment.name.injEq, true_and]
      constructor
      · rintro ⟨rfl, -⟩
        exact Nat.lt_irrefl _ less
      · rintro ⟨rfl, -⟩
        exact Nat.lt_irrefl _ less
  | item _ ih => simpa [List.cons_prefix_cons] using ih
  | field _ ih => simpa [List.cons_prefix_cons] using ih

/-- The table has the fields of every kind in the order in which they are read, under all spellings.
-/
theorem NodeKind.rank_lt (kind : NodeKind)
    : kind.fields.Pairwise fun earlier later =>
        ∀ a ∈ earlier.spellings, ∀ b ∈ later.spellings, kind.rank a < kind.rank b := by
  cases kind with
  | expr kind => cases kind <;> decide
  | stmt kind => cases kind <;> decide

/-- What a field reports lies below one of its spellings. -/
theorem Field.path_of_issues {origin : Origin} {fields : Fields} {field : Field} {issue : Issue}
    (reported : issue ∈ field.issues origin fields)
    : ∃ name ∈ field.spellings, ∃ rest, issue.path = .name name :: rest := by
  unfold Field.issues at reported
  split at reported
  next name datum found =>
    obtain ⟨below, -, rfl⟩ := List.mem_map.mp reported
    exact ⟨name, (lookup_of_find? found).1, below.path, rfl⟩
  next missing =>
    split at reported
    · cases reported
    · obtain rfl := List.mem_singleton.mp reported
      exact ⟨field.name, List.mem_cons_self, [], rfl⟩

/-- The issues of one field are in order if those of its datum are. -/
theorem Field.issues_increase {origin : Origin} {fields : Fields} {field : Field} {tag : String}
    (below : ∀ name datum, fields.find? field.spellings = some (name, datum)
      → (readAs origin field.role datum).issues.Pairwise fun a b => Before a.path b.path)
    : (field.issues origin fields).Pairwise fun a b =>
        Before (.name tag :: a.path) (.name tag :: b.path) := by
  unfold Field.issues
  split
  next name datum found =>
    rw [List.pairwise_map]
    exact (below name datum found).imp fun before => .field before
  next missing =>
    split
    · exact .nil
    · exact List.pairwise_singleton _ _

/-- Items are numbered upward. -/
theorem zipIdx_increases {α : Type} (items : List α)
    : items.zipIdx.Pairwise fun a b => a.2 < b.2 := by
  have indexes : (items.zipIdx.map Prod.snd).Pairwise fun i j => i < j := by
    rw [List.zipIdx_map_snd]
    exact List.pairwise_lt_range' 1
  exact List.pairwise_map.mp indexes

/-- Issues come in the order of the document. By induction over the reading: the issues of different
items and fields part at once, those of one are in order already. -/
theorem issues_increase (origin : Origin) (role : Role) (d : Datum)
    : (readAs origin role d).issues.Pairwise fun a b => Before a.path b.path := by
  induction role, d using reading_induction with
  | flat role d noNode noItems =>
      rcases readAs_flat origin noNode noItems with ⟨tree, read⟩ | ⟨problem, -, read⟩
      · rw [read]
        exact .nil
      · rw [read]
        exact List.pairwise_singleton _ _
  | block d items block ih =>
      rw [issues_block block, List.pairwise_flatMap]
      constructor
      · intro (item, i) member
        have found := List.mk_mem_zipIdx_iff_getElem?.mp member
        rw [List.pairwise_map]
        exact (ih item (List.mem_of_getElem? found)).imp fun before => .item before
      · refine (zipIdx_increases items).imp fun less => ?_
        rintro _ first _ second
        obtain ⟨a, -, rfl⟩ := List.mem_map.mp first
        obtain ⟨b, -, rfl⟩ := List.mem_map.mp second
        exact .items less
  | node kind d fields node ih =>
      rw [issues_node node, List.pairwise_flatMap]
      constructor
      · intro field listed
        rw [List.pairwise_map]
        exact Field.issues_increase (ih field listed)
      · refine kind.rank_lt.imp fun less => ?_
        rintro _ first _ second
        obtain ⟨a, ofFirst, rfl⟩ := List.mem_map.mp first
        obtain ⟨b, ofSecond, rfl⟩ := List.mem_map.mp second
        obtain ⟨name, spelled, rest, path⟩ := Field.path_of_issues ofFirst
        obtain ⟨name', spelled', rest', path'⟩ := Field.path_of_issues ofSecond
        simp only [Issue.under, path, path']
        exact .fields (less name spelled name' spelled')

-----------------------------------------------------------------------------------------
-- What is reported below a path
-----------------------------------------------------------------------------------------

/-- Seen from its own segment, an issue is as before. -/
theorem below?_under (segment : Segment) (path : List Segment) (issue : Issue)
    : (issue.under segment).below? (segment :: path) = issue.below? path := by
  simp [Issue.below?, Issue.under]

theorem below?_under_of_ne {segment other : Segment} (different : segment ≠ other)
    (path : List Segment) (issue : Issue)
    : (issue.under segment).below? (other :: path) = none := by
  simp [Issue.below?, Issue.under, different]

/-- Below a segment there is what was put below it. -/
theorem filterMap_below?_under (segment : Segment) (path : List Segment) (issues : List Issue)
    : (issues.map (Issue.under segment)).filterMap (Issue.below? (segment :: path))
      = issues.filterMap (Issue.below? path) := by
  rw [List.filterMap_map]
  exact congrArg (issues.filterMap ·) (funext fun issue => below?_under segment path issue)

/-- Below another segment there is nothing of it. -/
theorem filterMap_below?_under_of_ne {segment other : Segment} (different : segment ≠ other)
    (path : List Segment) (issues : List Issue)
    : (issues.map (Issue.under segment)).filterMap (Issue.below? (other :: path)) = [] := by
  rw [List.filterMap_map, List.filterMap_eq_nil_iff]
  exact fun issue _ => below?_under_of_ne different path issue

/-- In a list of distinct parts, what only one of them contributes is all there is. -/
theorem flatMap_eq_of_alone {α β : Type} {R : α → α → Prop} {l : List α} {a : α} {f : α → List β}
    (order : l.Pairwise R) (member : a ∈ l) (before : ∀ x, R x a → f x = [])
    (after : ∀ x, R a x → f x = [])
    : l.flatMap f = f a := by
  obtain ⟨front, back, rfl⟩ := List.append_of_mem member
  obtain ⟨-, behind, across⟩ := List.pairwise_append.mp order
  have nothingBefore : front.flatMap f = [] :=
    List.flatMap_eq_nil_iff.mpr fun x inFront => before x (across x inFront a List.mem_cons_self)
  have nothingAfter : back.flatMap f = [] :=
    List.flatMap_eq_nil_iff.mpr fun x inBack => after x (List.rel_of_pairwise_cons behind inBack)
  rw [List.flatMap_append, List.flatMap_cons, nothingBefore, nothingAfter, List.nil_append,
    List.append_nil]

/-- What is reported below a location is what the datum there reports alone, by induction over the
location. -/
theorem Holds.issues_below {origin : Origin} {role innerRole : Role} {d inner : Datum}
    {path : List Segment} (holds : Holds role d path innerRole inner)
    : (readAs origin role d).issues.filterMap (Issue.below? path)
      = (readAs origin innerRole inner).issues := by
  induction holds with
  | here => exact List.filterMap_some
  | @item d item inner items i path role block found below ih =>
      have member : (item, i) ∈ items.zipIdx := List.mk_mem_zipIdx_iff_getElem?.mpr found
      rw [issues_block block, List.filterMap_flatMap,
        flatMap_eq_of_alone (zipIdx_increases items) member]
      · exact (filterMap_below?_under (.index i) path _).trans ih
      · intro (other, j) less
        exact filterMap_below?_under_of_ne (by simp; omega) path _
      · intro (other, j) less
        exact filterMap_below?_under_of_ne (by simp; omega) path _
  | @field role innerRole d datum inner kind fields field name path node listed found below ih =>
      -- A field that is not this one has no spelling in common with it, so nothing of it is seen.
      have unseen (other : Field) (apart : ∀ spelling ∈ other.spellings, spelling ≠ name)
          : ((other.issues origin fields).map (Issue.under (.name kind.tag))).filterMap
              (Issue.below? (.name kind.tag :: .name name :: path)) = [] := by
        rw [filterMap_below?_under, List.filterMap_eq_nil_iff]
        intro ⟨problem, whole⟩ reported
        obtain ⟨spelling, spelled, rest, rfl⟩ := Field.path_of_issues reported
        simp [Issue.below?, apart spelling spelled]
      have spelled := (lookup_of_find? found).1
      rw [issues_node node, List.filterMap_flatMap, flatMap_eq_of_alone kind.rank_lt listed]
      · rw [filterMap_below?_under]
        simp only [Field.issues, found]
        exact (filterMap_below?_under (.name name) path _).trans ih
      · intro other less
        exact unseen other fun spelling also => by
          rintro rfl
          exact Nat.lt_irrefl _ (less spelling also spelling spelled)
      · intro other less
        exact unseen other fun spelling also => by
          rintro rfl
          exact Nat.lt_irrefl _ (less spelling spelled spelling also)

-----------------------------------------------------------------------------------------
-- Rejected programs
-----------------------------------------------------------------------------------------

/-- The path of an issue, without its tags, leads to a datum, or else to an object that has a field
of its kind under none of the field's spellings. -/
def LeadsInto (nodes : Datum) (issue : Issue) : Prop :=
  if issue.problem = .fieldMissing then
    ∃ path fields kind field, withoutTags issue.path = path ++ [.name (Field.name field)]
      ∧ nodes.follow path = some (.object fields)
      ∧ fields.lookup "kind" = some (.text (NodeKind.tag kind))
      ∧ field ∈ kind.fields
      ∧ ∀ spelling ∈ field.spellings, fields.lookup spelling = none
  else ∃ d, nodes.follow (withoutTags issue.path) = some d

/-- Every issue leads to a datum, or to the object that lacks a field. -/
theorem leadsInto_of_reported {origin : Origin} {role : Role} {nodes : Datum} {issue : Issue}
    (reported : issue ∈ (readAs origin role nodes).issues)
    : LeadsInto nodes issue := by
  obtain ⟨path, innerRole, inner, own, holds, isOwn, rfl⟩ := exists_ownIssue role nodes reported
  unfold LeadsInto
  cases isOwn with
  | flat other read =>
      rw [if_neg other, List.append_nil]
      exact ⟨inner, holds.follow⟩
  | @missing kind fields field node listed missing =>
      rw [if_pos rfl]
      obtain ⟨rfl, -, tagged⟩ := nodeOf?_eq_some.mp node
      exact ⟨_, fields, kind, field, holds.withoutTags_append _, holds.follow, tagged, listed, missing⟩

theorem issues_of_error {α : Type} {checked : Checked α} {issues : List Issue}
    (refused : checked = .error issues)
    : checked.issues = issues := by
  rw [refused]
  rfl

theorem error_of_issues {α : Type} {checked : Checked α} {first : Issue} {others : List Issue}
    (reported : checked.issues = first :: others)
    : checked = .error (first :: others) := by
  cases checked with
  | ok tree => cases reported
  | error issues => exact congrArg Except.error reported

end Document

open Document

/-- Data are rejected for some issues, handed over as plain data or as what a JSON text holds. -/
inductive Program.Rejected (nodes : Datum) : Origin → List Issue → Prop where
  | data {issues : List Issue} (refused : Program.ofNodes nodes = .error issues)
    : Rejected nodes .data issues
  | json {source : Datum} {issues : List Issue} (parsed : readJson source = .ok nodes)
      (refused : Program.ofJson source = .error issues)
    : Rejected nodes .json issues

/-- The issues for which data are rejected are those of reading them as a block. -/
theorem Program.Rejected.issues_eq {nodes : Datum} {origin : Origin} {issues : List Issue}
    (rejected : Program.Rejected nodes origin issues)
    : (readAs origin .block nodes).issues = issues := by
  cases rejected with
  | data refused =>
      rw [Program.ofNodes_eq] at refused
      exact (issues_map _ Program.mk).symm.trans (issues_of_error refused)
  | json parsed refused =>
      rw [Program.ofJson_of_parsed parsed] at refused
      exact (issues_map _ Program.mk).symm.trans (issues_of_error refused)

/-- The issues of rejected data: their paths lead into the data, none is a prefix of another, and
they come in the order of the document. A block reports what its items report, below their indexes,
a node what its fields report, below its tag, and so the issues below the path of any part of the
data are those that this part has alone. -/
theorem Program.issues_are_exact_and_ordered {nodes : Datum} {origin : Origin} {issues : List Issue}
    (rejected : Program.Rejected nodes origin issues)
    : (∀ issue ∈ issues, LeadsInto nodes issue)
      ∧ issues.Pairwise (fun a b => ¬ a.path <+: b.path ∧ ¬ b.path <+: a.path)
      ∧ issues.Pairwise (fun a b => Before a.path b.path)
      ∧ (∀ d items, itemsOf? .block d = some items
        → (readAs origin .block d).issues
          = items.zipIdx.flatMap fun (item, i) =>
              (readAs origin .stmt item).issues.map (Issue.under (.index i)))
      ∧ (∀ role d kind fields, nodeOf? role d = some (kind, fields)
        → (readAs origin role d).issues
          = kind.fields.flatMap fun field =>
              (field.issues origin fields).map (Issue.under (.name kind.tag)))
      ∧ ∀ path role d, Holds .block nodes path role d
        → issues.filterMap (Issue.below? path) = (readAs origin role d).issues := by
  obtain rfl := rejected.issues_eq
  have inOrder := issues_increase origin .block nodes
  refine ⟨fun issue reported => leadsInto_of_reported reported, ?_, inOrder, ?_, ?_, ?_⟩
  · exact inOrder.imp fun before => before.not_prefix
  · exact fun d items block => issues_block block
  · exact fun role d kind fields node => issues_node node
  · exact fun path role d holds => holds.issues_below

/-- Faults at several depths, in both sides of a branch and beside it. -/
def Datum.faulty : Datum :=
  .list
    [.object
      [("kind", .text "if"),
        ("test", .object
          [("kind", .text "operator"), ("operator", .text "%"), ("left", .number (.int 5))]),
        ("truePart", .tuple
          [.object
            [("kind", .text "let"), ("name", .null),
              ("expression", .object [("kind", .text "number"), ("value", .boolean true)])]])],
      .object [("kind", .text "goto")],
      .text "print"]

def Datum.faultyIssues : List Issue :=
  let test : List Segment := [.index 0, .name "if", .name "test", .name "operator"]
  let inner : List Segment := [.index 0, .name "if", .name "truePart", .index 0, .name "let"]
  [⟨.operatorExpected, test ++ [.name "operator"]⟩,
    ⟨.nodeExpected .data, test ++ [.name "left"]⟩,
    ⟨.fieldMissing, test ++ [.name "right"]⟩,
    ⟨.textExpected, inner ++ [.name "name"]⟩,
    ⟨.numberExpected, inner ++ [.name "expression", .name "number", .name "value"]⟩,
    ⟨.tagUnknown, [.index 1]⟩,
    ⟨.nodeExpected .data, [.index 2]⟩]

/-- A datum with several faults at different depths has all its issues reported in order. -/
theorem Program.issues_are_exact_and_ordered_faulty
    : Program.Rejected Datum.faulty .data Datum.faultyIssues
      ∧ (∀ issue ∈ Datum.faultyIssues, LeadsInto Datum.faulty issue)
      ∧ Datum.faultyIssues.Pairwise (fun a b => Before a.path b.path) := by
  have reported : (Program.ofNodes Datum.faulty).issues = Datum.faultyIssues := by decide +kernel
  have rejected : Program.Rejected Datum.faulty .data Datum.faultyIssues :=
    .data (error_of_issues reported)
  have facts := Program.issues_are_exact_and_ordered rejected
  exact ⟨rejected, facts.1, facts.2.2.1⟩

end ScopedWhile
