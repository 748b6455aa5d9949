import ScopedWhile.Proofs.Document.Edits
import ScopedWhile.Proofs.Document.Issues

/-!
Two spellings of one part. At any set of branches the second spelling of a part is replaced by the
first, where that one is absent. The program that is read stays the same, and an issue changes only
in the segments of its path that name such a part.
-/

namespace ScopedWhile

/-- The parts to respell: a branch is given by its path in the data, the part by its spelling. -/
abbrev Choice := List Segment → String → Bool

/-- The choice for a part of the data. -/
def Choice.below (chosen : Choice) (segment : Segment) : Choice :=
  fun path => chosen (segment :: path)

def firstSpelling (key : String) : String :=
  if key = "truePart" then "true_part" else if key = "falsePart" then "false_part" else key

namespace Document

def Fields.isBranch (fields : Fields) : Bool :=
  match fields.lookup "kind" with
  | some (.text tag) => tag = "if"
  | _ => false

/-- The key that replaces a key of an object. -/
def Fields.respelled (fields : Fields) (chosen : Choice) (key : String) : String :=
  if fields.isBranch ∧ chosen [] key ∧ (fields.lookup (firstSpelling key)).isNone then
    firstSpelling key
  else key

end Document

mutual

def Datum.respell (chosen : Choice) : Datum → Datum
  | .list items => .list (Datum.respellItems chosen 0 items)
  | .tuple items => .tuple (Datum.respellItems chosen 0 items)
  | .object fields =>
      .object (Datum.respellFields chosen (Document.Fields.respelled fields chosen) fields)
  | d => d

def Datum.respellItems (chosen : Choice) (index : Nat) : List Datum → List Datum
  | [] => []
  | item :: rest =>
      item.respell (chosen.below (.index index)) :: Datum.respellItems chosen (index + 1) rest

def Datum.respellFields (chosen : Choice) (rename : String → String)
    : List (String × Datum) → List (String × Datum)
  | [] => []
  | (key, datum) :: rest =>
      (rename key, datum.respell (chosen.below (.name key)))
        :: Datum.respellFields chosen rename rest

end

namespace Document

/-- The name in a path for a key of a node with the given tag. -/
def respelledSegment (chosen : Choice) (tag key : String) : String :=
  if tag = "if" ∧ chosen [] key then firstSpelling key else key

def respellPath : Choice → List Segment → List Segment
  | chosen, .index i :: rest => .index i :: respellPath (chosen.below (.index i)) rest
  | chosen, .name tag :: .name key :: rest =>
      .name tag :: .name (respelledSegment chosen tag key)
        :: respellPath (chosen.below (.name key)) rest
  | _, path => path

/-- A path from after the tag of a node. -/
def respellFieldPath (chosen : Choice) (tag : String) : List Segment → List Segment
  | .name key :: rest =>
      .name (respelledSegment chosen tag key) :: respellPath (chosen.below (.name key)) rest
  | path => path

end Document

open Document

def Issue.respell (chosen : Choice) (issue : Issue) : Issue :=
  { issue with path := respellPath chosen issue.path }

def Issue.respellField (chosen : Choice) (tag : String) (issue : Issue) : Issue :=
  { issue with path := respellFieldPath chosen tag issue.path }

namespace Document

-----------------------------------------------------------------------------------------
-- Paths
-----------------------------------------------------------------------------------------

/-- Respelling passes below an index. -/
theorem commutes_item (chosen : Choice) (i : Nat)
    : Commutes (Issue.respell chosen) (Issue.respell (chosen.below (.index i))) (.index i) (.index i) :=
  fun _ => rfl

/-- Respelling passes below a tag, to the paths of its fields. -/
theorem commutes_tag (chosen : Choice) (tag : String)
    : Commutes (Issue.respell chosen) (Issue.respellField chosen tag) (.name tag) (.name tag) := by
  intro ⟨problem, path⟩
  cases path with
  | nil => rfl
  | cons segment rest => cases segment <;> rfl

/-- Respelling passes below a field, whose own name it may replace. -/
theorem commutes_field (chosen : Choice) (tag key : String)
    : Commutes (Issue.respellField chosen tag) (Issue.respell (chosen.below (.name key)))
        (.name key) (.name (respelledSegment chosen tag key)) :=
  fun _ => rfl

-----------------------------------------------------------------------------------------
-- Parts of respelled data
-----------------------------------------------------------------------------------------

/-- Respelling keeps the number of items. -/
theorem length_respellItems (chosen : Choice) (index : Nat) (items : List Datum)
    : (Datum.respellItems chosen index items).length = items.length := by
  induction items generalizing index with
  | nil => rfl
  | cons item rest ih => simp [Datum.respellItems, ih]

/-- Items are respelled one by one, each by the choices below its index. -/
theorem getElem?_respellItems (chosen : Choice) (index i : Nat) (items : List Datum)
    : (Datum.respellItems chosen index items)[i]?
      = items[i]?.map fun item => item.respell (chosen.below (.index (index + i))) := by
  induction items generalizing index i with
  | nil => rfl
  | cons item rest ih =>
      cases i with
      | zero => rfl
      | succ i =>
          simp only [Datum.respellItems, List.getElem?_cons_succ, ih]
          rw [Nat.add_assoc, Nat.add_comm 1]

/-- A key is found if it replaces one key only. -/
theorem lookup_respellFields {chosen : Choice} {rename : String → String} {fields : Fields}
    {target source : String} (only : ∀ key ∈ fields.map (·.1), rename key = target ↔ key = source)
    : (Datum.respellFields chosen rename fields).lookup target
      = (fields.lookup source).map fun d => d.respell (chosen.below (.name source)) := by
  induction fields with
  | nil => rfl
  | cons field rest ih =>
      obtain ⟨key, datum⟩ := field
      rw [List.map_cons, List.forall_mem_cons] at only
      rw [Datum.respellFields, List.lookup_cons, List.lookup_cons, ih only.2]
      by_cases same : key = source
      · subst same
        simp [only.1.mpr rfl]
      · have other : rename key ≠ target := fun equal => same (only.1.mp equal)
        simp [beq_false_of_ne (Ne.symm same), beq_false_of_ne other.symm]

/-- A key that is neither replaced nor replaces another. -/
def Plain (name : String) : Prop :=
  ∀ key, firstSpelling key = name ↔ key = name

/-- All keys but the two spellings of the two parts are plain. -/
theorem plain_of_ne {name : String}
    (other : name ∉ ["truePart", "true_part", "falsePart", "false_part"])
    : Plain name := by
  intro key
  simp only [List.mem_cons, List.not_mem_nil, or_false, not_or] at other
  unfold firstSpelling
  split
  next isTrue => simp [isTrue, Ne.symm other.1, Ne.symm other.2.1]
  next notTrue =>
    split
    next isFalse => simp [isFalse, Ne.symm other.2.2.1, Ne.symm other.2.2.2]
    next notFalse => rfl

section
variable {fields : Fields} {chosen : Choice}

/-- A plain key is what it was respelled to. -/
theorem respelled_of_plain {name : String} (plain : Plain name) (key : String)
    : fields.respelled chosen key = name ↔ key = name := by
  unfold Fields.respelled
  split
  · exact plain key
  · rfl

/-- A plain key is found as before, with a respelled datum. -/
theorem lookup_plain {name : String} (plain : Plain name)
    : (Datum.respellFields chosen (Fields.respelled fields chosen) fields).lookup name
      = (fields.lookup name).map fun d => d.respell (chosen.below (.name name)) :=
  lookup_respellFields fun key _ => respelled_of_plain plain key

/-- Tags are not respelled. -/
theorem ofTag?_respell (role : Role) (tag : Datum)
    : NodeKind.ofTag? role (tag.respell chosen) = NodeKind.ofTag? role tag := by
  cases tag <;> cases role <;> rfl

/-- A respelled node is a node of the same kind, with respelled fields. -/
theorem nodeOf?_respell (role : Role) (fields : Fields)
    : nodeOf? role (Datum.respell chosen (.object fields))
      = (nodeOf? role (.object fields)).map fun (kind, _) =>
          (kind, Datum.respellFields chosen (Fields.respelled fields chosen) fields) := by
  have kindPlain : Plain "kind" := plain_of_ne (by decide)
  simp only [Datum.respell, nodeOf?, lookup_plain kindPlain, Option.map_map]
  cases fields.lookup "kind" with
  | none => rfl
  | some tag =>
      simp only [Option.map_some, Option.bind_some, ofTag?_respell]
      rfl

/-- What is no node has the same problem when respelled. -/
theorem nodeProblem_respell (origin : Origin) (d : Datum)
    : nodeProblem origin (d.respell chosen) = nodeProblem origin d := by
  cases d with
  | object fields =>
      have kindPlain : Plain "kind" := plain_of_ne (by decide)
      simp only [Datum.respell, nodeProblem, lookup_plain kindPlain, Option.isSome_map]
  | _ => rfl

theorem noNode_respell {role : Role} {d : Datum} (noNode : nodeOf? role d = none)
    : nodeOf? role (d.respell chosen) = none := by
  cases d with
  | object fields => rw [nodeOf?_respell, noNode, Option.map_none]
  | _ => rfl

/-- A field is found with the same datum, respelled, under the name that its key has in paths. -/
def FoundRespelled (fields : Fields) (chosen : Choice) (tag : String) (names : List String) : Prop :=
  let others := Datum.respellFields chosen (Fields.respelled fields chosen) fields
  (fields.find? names = none ∧ Fields.find? others names = none)
  ∨ ∃ key d, fields.find? names = some (key, d)
    ∧ Fields.find? others names
      = some (respelledSegment chosen tag key, d.respell (chosen.below (.name key)))

/-- A field with one plain spelling is found as before. -/
theorem foundRespelled_plain {name : String} (plain : Plain name) (tag : String)
    : FoundRespelled fields chosen tag [name] := by
  have segment : respelledSegment chosen tag name = name := by
    unfold respelledSegment
    rw [(plain name).mpr rfl, ite_self]
  simp only [FoundRespelled, find?_cons, lookup_plain plain]
  cases fields.lookup name with
  | none => exact Or.inl ⟨rfl, rfl⟩
  | some d =>
      refine Or.inr ⟨name, d, rfl, ?_⟩
      rw [segment]
      rfl

/-- A key that is present is not one that is absent. -/
theorem ne_of_lookup_eq_none {name key : String} (absent : fields.lookup name = none)
    (present : key ∈ fields.map (·.1))
    : key ≠ name := by
  rintro rfl
  obtain ⟨entry, member, rfl⟩ := List.mem_map.mp present
  have different := List.lookup_eq_none_iff.mp absent entry member
  simp at different

/-- The second spelling of a part is replaced by the first, and nothing else is. -/
structure Replaces (first second : String) : Prop where
  image : firstSpelling second = first
  fixed : firstSpelling first = first
  preimage (key : String) : firstSpelling key = first → key = first ∨ key = second
  gone (key : String) : firstSpelling key ≠ second

theorem firstSpelling_cases (key : String)
    : key = "truePart" ∨ key = "falsePart" ∨ firstSpelling key = key := by
  by_cases isTrue : key = "truePart"
  · exact Or.inl isTrue
  · by_cases isFalse : key = "falsePart"
    · exact Or.inr (Or.inl isFalse)
    · refine Or.inr (Or.inr ?_)
      rw [firstSpelling, if_neg isTrue, if_neg isFalse]

/-- The spellings of a part are the one replaced and the one that replaces it. -/
theorem replaces_part {first second : String}
    (part : (first, second) ∈ [("true_part", "truePart"), ("false_part", "falsePart")])
    : Replaces first second := by
  simp only [List.mem_cons, List.not_mem_nil, or_false, Prod.mk.injEq] at part
  rcases part with ⟨rfl, rfl⟩ | ⟨rfl, rfl⟩
  all_goals
    refine ⟨by decide, by decide, fun key same => ?_, fun key same => ?_⟩
    · rcases firstSpelling_cases key with rfl | rfl | kept
      · revert same
        decide
      · revert same
        decide
      · exact Or.inl (kept.symm.trans same)
    · rcases firstSpelling_cases key with rfl | rfl | kept
      · revert same
        decide
      · revert same
        decide
      · obtain rfl := kept.symm.trans same
        revert same
        decide

/-- The second spelling of a part is replaced at an object. -/
def Taken (fields : Fields) (chosen : Choice) (first second : String) : Prop :=
  fields.isBranch ∧ chosen [] second ∧ (fields.lookup first).isNone

/-- What is respelled to the first spelling was spelled so, or was the second one and taken. -/
theorem respelled_eq_first {first second : String} (replaces : Replaces first second) (key : String)
    : fields.respelled chosen key = first
      ↔ key = first ∨ key = second ∧ Taken fields chosen first second := by
  unfold Fields.respelled
  split
  next renamed =>
    constructor
    · intro same
      rw [same] at renamed
      rcases replaces.preimage key same with rfl | rfl
      · exact Or.inl rfl
      · exact Or.inr ⟨rfl, renamed⟩
    · rintro (rfl | ⟨rfl, -⟩)
      · exact replaces.fixed
      · exact replaces.image
  next kept =>
    constructor
    · exact Or.inl
    · rintro (same | ⟨rfl, taken⟩)
      · exact same
      · rw [replaces.image] at kept
        exact absurd taken kept

/-- What is left under the second spelling is what was not taken. -/
theorem respelled_eq_second {first second : String} (replaces : Replaces first second) (key : String)
    : fields.respelled chosen key = second
      ↔ key = second ∧ ¬ Taken fields chosen first second := by
  unfold Fields.respelled
  split
  next renamed =>
    constructor
    · intro same
      exact absurd same (replaces.gone key)
    · rintro ⟨rfl, notTaken⟩
      rw [replaces.image] at renamed
      exact absurd renamed notTaken
  next kept =>
    constructor
    · rintro rfl
      rw [replaces.image] at kept
      exact ⟨rfl, kept⟩
    · exact And.left

/-- A part with two spellings is found under the one that counts after respelling, by cases over
which of them are present and taken. -/
theorem foundRespelled_pair {first second : String} (replaces : Replaces first second)
    (branch : fields.isBranch = true)
    : FoundRespelled fields chosen "if" [first, second] := by
  simp only [FoundRespelled, find?_cons]
  by_cases taken : Taken fields chosen first second
  · -- What the second spelling held is found under the first, and nothing under the second.
    have noFirst : fields.lookup first = none := Option.isNone_iff_eq_none.mp taken.2.2
    have atFirst (key : String) (present : key ∈ fields.map (·.1))
        : fields.respelled chosen key = first ↔ key = second := by
      have different := ne_of_lookup_eq_none noFirst present
      simp [respelled_eq_first replaces, different, taken]
    have atSecond (key : String) (present : key ∈ fields.map (·.1))
        : fields.respelled chosen key = second ↔ key = first := by
      have different := ne_of_lookup_eq_none noFirst present
      simp [respelled_eq_second replaces, different, taken]
    have segment : respelledSegment chosen "if" second = first := by
      unfold respelledSegment
      rw [if_pos ⟨rfl, taken.2.1⟩, replaces.image]
    rw [lookup_respellFields atFirst, lookup_respellFields atSecond, noFirst]
    cases fields.lookup second with
    | none => exact Or.inl ⟨rfl, rfl⟩
    | some d =>
        refine Or.inr ⟨second, d, rfl, ?_⟩
        rw [segment]
        rfl
  · have atFirst (key : String) : fields.respelled chosen key = first ↔ key = first := by
      simp [respelled_eq_first replaces, taken]
    have atSecond (key : String) : fields.respelled chosen key = second ↔ key = second := by
      simp [respelled_eq_second replaces, taken]
    rw [lookup_respellFields fun key _ => atFirst key, lookup_respellFields fun key _ => atSecond key]
    cases hasFirst : fields.lookup first with
    | some d =>
        have segment : respelledSegment chosen "if" first = first := by
          unfold respelledSegment
          rw [replaces.fixed, ite_self]
        refine Or.inr ⟨first, d, rfl, ?_⟩
        rw [segment]
        rfl
    | none => cases fields.lookup second with
      | none => exact Or.inl ⟨rfl, rfl⟩
      | some d =>
          have left : chosen [] second = false := by
            cases picked : chosen [] second with
            | false => rfl
            | true => exact absurd ⟨branch, picked, by rw [hasFirst]; rfl⟩ taken
          have segment : respelledSegment chosen "if" second = second := by
            unfold respelledSegment
            rw [left]
            rfl
          refine Or.inr ⟨second, d, rfl, ?_⟩
          rw [segment]
          rfl

end

-----------------------------------------------------------------------------------------
-- Reading respelled data
-----------------------------------------------------------------------------------------

/-- Names of the table are first spellings already. -/
theorem respelledSegment_name (chosen : Choice) {kind : NodeKind} {field : Field}
    (listed : field ∈ kind.fields)
    : respelledSegment chosen kind.tag field.name = field.name := by
  have fixed : ∀ field ∈ kind.fields, firstSpelling field.name = field.name := by
    cases kind with
    | expr kind => cases kind <;> decide
    | stmt kind => cases kind <;> decide
  unfold respelledSegment
  rw [fixed field listed, ite_self]

/-- The two parts of a branch are the only fields with a second spelling. -/
theorem spellings_of_field {kind : NodeKind} {field : Field} (listed : field ∈ kind.fields)
    : field.aliases = [] ∧ field.name ∉ ["truePart", "true_part", "falsePart", "false_part"]
      ∨ kind.tag = "if"
        ∧ (field.spellings = ["true_part", "truePart"]
          ∨ field.spellings = ["false_part", "falsePart"]) := by
  revert field
  cases kind with
  | expr kind => cases kind <;> decide
  | stmt kind => cases kind <;> decide

/-- Every field of a node is found again in the respelled node. -/
theorem foundRespelled_field (chosen : Choice) {fields : Fields} {kind : NodeKind} {field : Field}
    (tagged : fields.lookup "kind" = some (.text kind.tag)) (listed : field ∈ kind.fields)
    : FoundRespelled fields chosen kind.tag field.spellings := by
  rcases spellings_of_field listed with ⟨alone, other⟩ | ⟨isIf, spellings⟩
  · rw [Field.spellings, alone]
    exact foundRespelled_plain (plain_of_ne other) kind.tag
  · rw [isIf] at tagged ⊢
    have branch : Fields.isBranch fields = true := by
      simp only [Fields.isBranch, tagged]
      rfl
    rcases spellings with parts | parts
    · rw [parts]
      exact foundRespelled_pair (replaces_part (by decide)) branch
    · rw [parts]
      exact foundRespelled_pair (replaces_part (by decide)) branch

/-- Data without parts are read the same when respelled. -/
theorem readAs_respell_flat (origin : Origin) (chosen : Choice) {role : Role} {d : Datum}
    (noNode : nodeOf? role d = none) (noItems : itemsOf? role d = none)
    : readAs origin role (d.respell chosen) = readAs origin role d := by
  cases role with
  | text | boolean | number | operator => cases d <;> rfl
  | expr | stmt =>
      rw [readAs_of_noNode origin (by simp) noNode,
        readAs_of_noNode origin (by simp) (noNode_respell noNode), nodeProblem_respell]
  | block =>
      have alsoNoItems : itemsOf? .block (d.respell chosen) = none := by
        cases d with
        | list items => cases noItems
        | tuple items => cases noItems
        | _ => rfl
      change readStmts origin (d.respell chosen) = readStmts origin d
      rw [readStmts_of_noItems origin noItems, readStmts_of_noItems origin alsoNoItems]

/-- Respelled data are read like the data they come from, with respelled paths. -/
theorem respell_comparison (origin : Origin)
    : Comparison origin origin fun _ f d e =>
        ∃ chosen : Choice, e = d.respell chosen ∧ f = Issue.respell chosen where
  flat {role f d e} related noNode noItems := by
    obtain ⟨chosen, rfl, rfl⟩ := related
    rw [readAs_respell_flat origin chosen noNode noItems]
    exact (mapIssues_flat (readAs_flat origin noNode noItems) fun problem => rfl).symm
  block {f d e items} related isBlock := by
    obtain ⟨chosen, rfl, rfl⟩ := related
    have alsoBlock
        : itemsOf? .block (d.respell chosen) = some (Datum.respellItems chosen 0 items) := by
      obtain ⟨-, rfl | rfl⟩ := itemsOf?_eq_some.mp isBlock <;> rfl
    refine ⟨_, alsoBlock, length_respellItems chosen 0 items, fun i item other found also => ?_⟩
    rw [getElem?_respellItems, found, Option.map_some, Nat.zero_add] at also
    obtain rfl := Option.some.inj also
    exact ⟨_, ⟨_, rfl, rfl⟩, commutes_item chosen i⟩
  node {f kind d e fields} related isNode := by
    obtain ⟨chosen, rfl, rfl⟩ := related
    obtain ⟨rfl, -, tagged⟩ := nodeOf?_eq_some.mp isNode
    have alsoNode := @nodeOf?_respell chosen kind.role fields
    rw [isNode, Option.map_some] at alsoNode
    refine ⟨_, _, alsoNode, commutes_tag chosen kind.tag, fun field listed => ?_⟩
    rcases foundRespelled_field chosen tagged listed with ⟨missing, alsoMissing⟩ | ⟨key, d, found, also⟩
    · refine Or.inl ⟨missing, alsoMissing, ?_⟩
      simp only [Issue.respellField, respellFieldPath, respelledSegment_name chosen listed, respellPath]
    · exact Or.inr ⟨key, d, _, _, _, found, also, ⟨_, rfl, rfl⟩, commutes_field chosen kind.tag key⟩

end Document

/-- Any edits of keys that are not looked up leave the program, or the issues, as they are. Putting
first spellings for second ones leaves the program as it is and changes the issues in the names of
the respelled parts only. -/
theorem Program.ofNodes_sees_only_its_keys
    : (∀ nodes edited, Relation.ReflTransGen Edit nodes edited
        → Program.ofNodes edited = Program.ofNodes nodes)
      ∧ ∀ (nodes : Datum) (chosen : Choice),
        Program.ofNodes (nodes.respell chosen)
          = (Program.ofNodes nodes).mapIssues (Issue.respell chosen) := by
  constructor
  · intro nodes edited edits
    induction edits with
    | refl => rfl
    | tail _ edit ih =>
        rw [← ih, Program.ofNodes_eq, Program.ofNodes_eq]
        exact congrArg (Except.map Program.mk) (edit.readAs_eq .data .block)
  · intro nodes chosen
    have read : readStmts .data (nodes.respell chosen)
        = (readStmts .data nodes).mapIssues (Issue.respell chosen) :=
      @Comparison.readAs _ _ _ (respell_comparison .data) .block _ _ _ ⟨chosen, rfl, rfl⟩
    rw [Program.ofNodes_eq, Program.ofNodes_eq, read, mapIssues_map]

/-- A branch over a statement that misses its expression, with more keys in the statement and in the
branch. -/
def Datum.spelledTwice (part : String) (inner outer : List (String × Datum)) : Datum :=
  .list
    [.object
      ([("kind", .text "if"),
          ("test", .object [("kind", .text "boolean"), ("value", .boolean true)]),
          (part, .list [.object ([("kind", .text "print")] ++ inner)]),
          ("false_part", .list [])]
        ++ outer)]

def Datum.ignoredInner : List (String × Datum) :=
  [("line", .number (.int 3))]

def Datum.ignoredOuter : List (String × Datum) :=
  [("falsePart", .null)]

/-- Keys that are not looked up change nothing, and the second spelling shows in the path of an
issue. -/
theorem Program.ofNodes_sees_only_its_keys_spelledTwice
    : Program.ofNodes (.spelledTwice "truePart" [] [])
        = Program.ofNodes (.spelledTwice "truePart" Datum.ignoredInner Datum.ignoredOuter)
      ∧ (Program.ofNodes (.spelledTwice "truePart" [] [])).issues
        = [⟨.fieldMissing,
            [.index 0, .name "if", .name "truePart", .index 0, .name "print", .name "expression"]⟩]
      ∧ (Program.ofNodes (.spelledTwice "true_part" [] [])).issues
        = [⟨.fieldMissing,
            [.index 0, .name "if", .name "true_part", .index 0, .name "print",
              .name "expression"]⟩] := by
  obtain ⟨edited, respelled⟩ := Program.ofNodes_sees_only_its_keys
  have inner : Edit (.object ([("kind", .text "print")] ++ Datum.ignoredInner))
      (.object [("kind", .text "print")]) := by
    refine .keys fun key looked => ?_
    have names : key ∈ ["kind", "expression"] := looked
    simp only [List.mem_cons, List.not_mem_nil, or_false] at names
    rcases names with rfl | rfl <;> rfl
  have innerGone : Edit (.spelledTwice "truePart" Datum.ignoredInner Datum.ignoredOuter)
      (.spelledTwice "truePart" [] Datum.ignoredOuter) :=
    @Edit.item [] [] _ _ (@Edit.field [_, _] _ _ _ _ (@Edit.item [] [] _ _ inner))
  have outerGone : Edit (.spelledTwice "truePart" [] Datum.ignoredOuter)
      (.spelledTwice "truePart" [] []) := by
    refine @Edit.item [] [] _ _ (.keys fun key looked => ?_)
    have names : key ∈ ["kind", "test", "true_part", "truePart", "false_part"] := looked
    simp only [List.mem_cons, List.not_mem_nil, or_false] at names
    rcases names with rfl | rfl | rfl | rfl | rfl <;> rfl
  refine ⟨edited _ _ ((Relation.ReflTransGen.single innerGone).tail outerGone), ?_, ?_⟩
  · decide +kernel
  · have read := respelled (.spelledTwice "truePart" [] []) fun _ _ => true
    have renamed : Datum.respell (fun _ _ => true) (.spelledTwice "truePart" [] [])
      = .spelledTwice "true_part" [] [] := rfl
    rw [renamed] at read
    rw [read]
    decide +kernel

end ScopedWhile
