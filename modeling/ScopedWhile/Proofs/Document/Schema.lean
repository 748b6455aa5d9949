import ScopedWhile.Document.Loading

/-!
The table of fields. What a node of each kind holds is written once, as a list of fields with their
spellings and the role that their data play, and the readers of nodes are shown to go through this
table. What holds of every reading is then proved along the table: for data without parts, for the
items of a block and for the fields of a node.
-/

namespace ScopedWhile

/-- Puts a segment in front of the path of an issue. -/
def Issue.under (segment : Segment) (issue : Issue) : Issue :=
  { issue with path := segment :: issue.path }

namespace Document

-----------------------------------------------------------------------------------------
-- Roles and fields
-----------------------------------------------------------------------------------------

/-- What a datum is read as. -/
inductive Role where
  | text
  | boolean
  | number
  | operator
  | expr
  | stmt
  | block
deriving DecidableEq

def Role.Tree : Role → Type
  | .text => String
  | .boolean => Bool
  | .number => Binary64
  | .operator => Operator
  | .expr => Expr
  | .stmt => Stmt
  | .block => List Stmt

def readAs (origin : Origin) : (role : Role) → Datum → Checked role.Tree
  | .text => readText
  | .boolean => readBoolean
  | .number => readNumber origin
  | .operator => readOperator
  | .expr => readExpr origin
  | .stmt => readStmt origin
  | .block => readStmts origin

structure Field where
  name : String
  /-- The other spellings, which count only if those before them are absent. -/
  aliases : List String := []
  role : Role
  /-- What an absent field stands for, unless it must be there. -/
  absent : Option role.Tree := none

def Field.spellings (field : Field) : List String :=
  field.name :: field.aliases

inductive NodeKind where
  | expr (kind : ExprKind)
  | stmt (kind : StmtKind)

namespace NodeKind

def role : NodeKind → Role
  | .expr _ => .expr
  | .stmt _ => .stmt

def tag : NodeKind → String
  | .expr kind => kind.tag
  | .stmt kind => kind.tag

/-- The kind of node that a tag selects in a role. -/
def ofTag? (role : Role) (tag : Datum) : Option NodeKind :=
  match role with
  | .expr => (exprKind? tag).map .expr
  | .stmt => (stmtKind? tag).map .stmt
  | _ => none

/-- The fields of a node after its tag, in the order in which they are read. -/
def fields : NodeKind → List Field
  | .expr .boolean => [{ name := "value", role := .boolean }]
  | .expr .number => [{ name := "value", role := .number }]
  | .expr .var => [{ name := "name", role := .text }]
  | .expr .operator =>
      [{ name := "operator", role := .operator },
       { name := "left", role := .expr },
       { name := "right", role := .expr }]
  | .stmt .declare | .stmt .assign =>
      [{ name := "name", role := .text },
       { name := "expression", role := .expr }]
  | .stmt .branch =>
      [{ name := "test", role := .expr },
       { name := "true_part", aliases := ["truePart"], role := .block },
       { name := "false_part", aliases := ["falsePart"], role := .block, absent := some [] }]
  | .stmt .loop =>
      [{ name := "test", role := .expr },
       { name := "body", role := .block }]
  | .stmt .print => [{ name := "expression", role := .expr }]

end NodeKind

/-- The kind and the fields of the node that a datum is in a role. -/
def nodeOf? (role : Role) : Datum → Option (NodeKind × Fields)
  | .object fields =>
      ((fields.lookup "kind").bind (NodeKind.ofTag? role)).map fun kind => (kind, fields)
  | _ => none

/-- The items of the block that a datum is in a role. -/
def itemsOf? : Role → Datum → Option (List Datum)
  | .block, .list items => some items
  | .block, .tuple items => some items
  | _, _ => none

/-- What is found under several spellings is found under one of them. -/
theorem lookup_of_find? {fields : Fields} {names : List String} {name : String} {datum : Datum}
    (found : fields.find? names = some (name, datum))
    : name ∈ names ∧ fields.lookup name = some datum := by
  obtain ⟨spelling, listed, present⟩ := List.exists_of_findSome?_eq_some found
  obtain ⟨item, held, same⟩ := Option.map_eq_some_iff.mp present
  obtain ⟨rfl, rfl⟩ := Prod.mk.inj same
  exact ⟨listed, held⟩

/-- Nothing is found exactly if every spelling is absent. -/
theorem find?_eq_none {fields : Fields} {names : List String}
    : fields.find? names = none ↔ ∀ name ∈ names, fields.lookup name = none := by
  simp [Fields.find?, List.findSome?_eq_none_iff]

-----------------------------------------------------------------------------------------
-- Nodes are read along the table
-----------------------------------------------------------------------------------------

/-- What is read from several fields, one after the other. -/
def Row : List Field → Type
  | [] => Unit
  | [field] => field.role.Tree
  | field :: next :: rest => field.role.Tree × Row (next :: rest)

def Field.read (origin : Origin) (fields : Fields) (field : Field) : Checked field.role.Tree :=
  match fields.find? field.spellings with
  | some (name, datum) => (readAs origin field.role datum).under (.name name)
  | none => match field.absent with
    | some tree => .ok tree
    | none => (Checked.issue .fieldMissing).under (.name field.name)

def readRow (origin : Origin) (fields : Fields) : (row : List Field) → Checked (Row row)
  | [] => .ok ()
  | [field] => field.read origin fields
  | field :: next :: rest => (field.read origin fields).both (readRow origin fields (next :: rest))

/-- The node of a kind with the given parts. -/
def NodeKind.assemble : (kind : NodeKind) → Row kind.fields → kind.role.Tree
  | .expr .boolean => Expr.boolean
  | .expr .number => Expr.number
  | .expr .var => Expr.var
  | .expr .operator => fun (op, left, right) => Expr.binary op left right
  | .stmt .declare => fun (name, value) => Stmt.declare name value
  | .stmt .assign => fun (name, value) => Stmt.assign name value
  | .stmt .branch => fun (test, whenTrue, whenFalse) => Stmt.branch test whenTrue whenFalse
  | .stmt .loop => fun (test, body) => Stmt.loop test body
  | .stmt .print => Stmt.print

def readFields (origin : Origin) : (kind : NodeKind) → Fields → Checked kind.role.Tree
  | .expr kind => readExprFields origin kind
  | .stmt kind => readStmtFields origin kind

/-- A required field is read along its entry in the table. -/
theorem required_eq_read (origin : Origin) (fields : Fields) (name : String) (aliases : List String)
    (role : Role)
    : required fields (name :: aliases) (fun d _ => readAs origin role d)
      = Field.read origin fields { name, aliases, role } := by
  unfold required Field.read Field.spellings
  split
  next spelling d found => simp only [found]
  next missing =>
    simp only [missing]
    rfl

/-- A field that may be absent is read along its entry in the table, which says what stands for it.
-/
theorem optional_eq_read (origin : Origin) (fields : Fields) (name : String) (aliases : List String)
    (role : Role) (tree : role.Tree)
    : optional fields (name :: aliases) tree (fun d _ => readAs origin role d)
      = Field.read origin fields { name, aliases, role, absent := some tree } := by
  unfold optional Field.read Field.spellings
  split
  next spelling d found => simp only [found]
  next missing => simp only [missing]

/-- The readers of all kinds of nodes go through the table, by cases over the kinds. -/
theorem readFields_eq (origin : Origin) (kind : NodeKind) (fields : Fields)
    : readFields origin kind fields = (readRow origin fields kind.fields).map kind.assemble := by
  have one (name : String) := required_eq_read origin fields name []
  have whenTrue := required_eq_read origin fields "true_part" ["truePart"] .block
  have whenFalse := optional_eq_read origin fields "false_part" ["falsePart"] .block ([] : List Stmt)
  have both {α β : Type} {a a' : Checked α} {b b' : Checked β} (first : a = a') (second : b = b')
      : a.both b = a'.both b' := by
    rw [first, second]
  cases kind with
  | expr kind =>
      rw [readFields, readExprFields.eq_def]
      cases kind with
      | boolean => exact congrArg (Except.map _) (one "value" .boolean)
      | number => exact congrArg (Except.map _) (one "value" .number)
      | var => exact congrArg (Except.map _) (one "name" .text)
      | operator =>
          have operands := both (one "left" .expr) (one "right" .expr)
          exact congrArg (Except.map _) (both (one "operator" .operator) operands)
  | stmt kind =>
      rw [readFields, readStmtFields.eq_def]
      have named := both (one "name" .text) (one "expression" .expr)
      cases kind with
      | declare => exact congrArg (Except.map _) named
      | assign => exact congrArg (Except.map _) named
      | branch =>
          have parts := both whenTrue whenFalse
          exact congrArg (Except.map _) (both (one "test" .expr) parts)
      | loop => exact congrArg (Except.map _) (both (one "test" .expr) (one "body" .block))
      | print => exact congrArg (Except.map _) (one "expression" .expr)

-----------------------------------------------------------------------------------------
-- Every reading is of a node, of a block or of a datum without parts
-----------------------------------------------------------------------------------------

/-- A tag selects the kind of expression that is marked by it, and only that one. -/
theorem exprKind?_eq_some {tag : Datum} {kind : ExprKind}
    : exprKind? tag = some kind ↔ tag = .text kind.tag := by
  constructor
  · intro found
    cases tag with
    | text s =>
        have same := List.find?_some found
        rw [of_decide_eq_true same]
    | _ => nomatch found
  · rintro rfl
    cases kind <;> decide

/-- A tag selects the kind of statement that is marked by it, and only that one. -/
theorem stmtKind?_eq_some {tag : Datum} {kind : StmtKind}
    : stmtKind? tag = some kind ↔ tag = .text kind.tag := by
  constructor
  · intro found
    cases tag with
    | text s =>
        have same := List.find?_some found
        rw [of_decide_eq_true same]
    | _ => nomatch found
  · rintro rfl
    cases kind <;> decide

/-- In a role, a tag selects the kind of that role that it marks. -/
theorem NodeKind.ofTag?_eq_some {role : Role} {tag : Datum} {kind : NodeKind}
    : ofTag? role tag = some kind ↔ kind.role = role ∧ tag = .text kind.tag := by
  cases role with
  | expr => cases kind <;> simp [ofTag?, NodeKind.role, NodeKind.tag, exprKind?_eq_some]
  | stmt => cases kind <;> simp [ofTag?, NodeKind.role, NodeKind.tag, stmtKind?_eq_some]
  | _ => cases kind <;> simp [ofTag?, NodeKind.role]

/-- A datum is a node of a kind exactly if it is an object with the tag of that kind. -/
theorem nodeOf?_eq_some {role : Role} {d : Datum} {kind : NodeKind} {fields : Fields}
    : nodeOf? role d = some (kind, fields)
      ↔ d = .object fields ∧ kind.role = role ∧ fields.lookup "kind" = some (.text kind.tag) := by
  cases d with
  | object entries =>
      simp only [nodeOf?, Option.map_eq_some_iff, Option.bind_eq_some_iff, NodeKind.ofTag?_eq_some,
        Prod.mk.injEq, Datum.object.injEq]
      constructor
      · rintro ⟨_, ⟨tag, tagged, same, rfl⟩, rfl, rfl⟩
        exact ⟨rfl, same, tagged⟩
      · rintro ⟨rfl, same, tagged⟩
        exact ⟨_, ⟨_, tagged, same, rfl⟩, rfl, rfl⟩
  | _ => simp [nodeOf?]

/-- Lists and tuples are blocks, and nothing else is. -/
theorem itemsOf?_eq_some {role : Role} {d : Datum} {items : List Datum}
    : itemsOf? role d = some items ↔ role = .block ∧ (d = .list items ∨ d = .tuple items) := by
  cases role with
  | block => cases d <;> simp [itemsOf?, eq_comm]
  | _ => simp [itemsOf?]

/-- A node is read field by field, and its issues lie below its tag. -/
theorem readAs_node {origin : Origin} {kind : NodeKind} {d : Datum} {fields : Fields}
    (node : nodeOf? kind.role d = some (kind, fields))
    : readAs origin kind.role d
      = Checked.under (.name kind.tag) ((readRow origin fields kind.fields).map kind.assemble) := by
  obtain ⟨rfl, -, tagged⟩ := nodeOf?_eq_some.mp node
  rw [← readFields_eq]
  cases kind with
  | expr kind =>
      have known := exprKind?_eq_some.mpr (rfl : Datum.text kind.tag = .text kind.tag)
      change readExpr origin (.object fields) = _
      simp only [readExpr, tagged, NodeKind.tag, known]
      rfl
  | stmt kind =>
      have known := stmtKind?_eq_some.mpr (rfl : Datum.text kind.tag = .text kind.tag)
      change readStmt origin (.object fields) = _
      simp only [readStmt, tagged, NodeKind.tag, known]
      rfl

/-- A block is read item by item from the first one on. -/
theorem readAs_items {origin : Origin} {d : Datum} {items : List Datum}
    (found : itemsOf? .block d = some items)
    : readAs origin .block d = readItems origin 0 items := by
  obtain ⟨-, rfl | rfl⟩ := itemsOf?_eq_some.mp found
  · change readStmts origin (.list items) = _
    rw [readStmts]
  · change readStmts origin (.tuple items) = _
    rw [readStmts]

/-- A reading that succeeds, or that has one issue, which is with the datum itself. -/
def Flat {α : Type} (checked : Checked α) : Prop :=
  (∃ tree, checked = .ok tree)
  ∨ ∃ problem, problem ≠ Problem.fieldMissing ∧ checked = Checked.issue problem

namespace Flat

variable {α : Type}

theorem ok (tree : α)
    : Flat (.ok tree : Checked α) :=
  Or.inl ⟨tree, rfl⟩

theorem issue {problem : Problem} (other : problem ≠ .fieldMissing)
    : Flat (Checked.issue problem : Checked α) :=
  Or.inr ⟨problem, other, rfl⟩

end Flat

/-- What is wrong with a datum that is no node of its role. -/
def nodeProblem (origin : Origin) : Datum → Problem
  | .object fields => if (fields.lookup "kind").isSome then .tagUnknown else .tagMissing
  | _ => .nodeExpected origin

/-- That a field is missing is said of a node, never of a datum that is none. -/
theorem nodeProblem_ne_fieldMissing (origin : Origin) (d : Datum)
    : nodeProblem origin d ≠ .fieldMissing := by
  unfold nodeProblem
  split
  · split <;> simp
  · simp

/-- Where a node is asked for, a datum that is none has one issue, by cases over its tag. -/
theorem readAs_of_noNode (origin : Origin) {role : Role} {d : Datum}
    (asked : role = .expr ∨ role = .stmt) (noNode : nodeOf? role d = none)
    : readAs origin role d = Checked.issue (nodeProblem origin d) := by
  cases d with
  | object fields =>
      cases tagged : fields.lookup "kind" with
      | none =>
          rcases asked with rfl | rfl <;>
            simp only [readAs, readExpr, readStmt, nodeProblem, tagged] <;> rfl
      | some tag =>
          have unknown : NodeKind.ofTag? role tag = none := by
            simpa [nodeOf?, tagged] using noNode
          rcases asked with rfl | rfl
          · have noExpr : exprKind? tag = none := by simpa [NodeKind.ofTag?] using unknown
            simp only [readAs, readExpr, nodeProblem, tagged, noExpr]
            rfl
          · have noStmt : stmtKind? tag = none := by simpa [NodeKind.ofTag?] using unknown
            simp only [readAs, readStmt, nodeProblem, tagged, noStmt]
            rfl
  | _ => rcases asked with rfl | rfl <;> simp only [readAs, readExpr, readStmt] <;> rfl

/-- What is no list of items has one issue. -/
theorem readStmts_of_noItems (origin : Origin) {d : Datum} (noItems : itemsOf? .block d = none)
    : readStmts origin d = .issue .listExpected := by
  cases d with
  | list items => simp [itemsOf?] at noItems
  | tuple items => simp [itemsOf?] at noItems
  | _ => simp [readStmts]

/-- A datum that is neither a node nor a block of its role has no parts to have issues. -/
theorem readAs_flat (origin : Origin) {role : Role} {d : Datum}
    (noNode : nodeOf? role d = none) (noItems : itemsOf? role d = none)
    : Flat (readAs origin role d) := by
  cases role with
  | text | boolean | number | operator =>
      -- Every branch of these readers ends in a tree or in one issue.
      simp only [readAs, readText, readBoolean, readNumber, readOperator]
      repeat' split
      all_goals first | exact .ok _ | exact .issue (by simp)
  | expr | stmt =>
      rw [readAs_of_noNode origin (by simp) noNode]
      exact .issue (nodeProblem_ne_fieldMissing origin d)
  | block => exact Or.inr ⟨_, by simp, readStmts_of_noItems origin noItems⟩

/-- The datum of a field is smaller than the node, which lets the induction over readings go down.
-/
theorem sizeOf_field_lt {role : Role} {d : Datum} {kind : NodeKind} {fields : Fields}
    (node : nodeOf? role d = some (kind, fields)) {names : List String} {name : String}
    {datum : Datum} (found : fields.find? names = some (name, datum))
    : sizeOf datum < sizeOf d := by
  obtain ⟨rfl, -⟩ := nodeOf?_eq_some.mp node
  have smaller := Fields.sizeOf_find?_lt found
  simp only [Datum.object.sizeOf_spec]
  omega

/-- An item is smaller than its block. -/
theorem sizeOf_item_lt {role : Role} {d item : Datum} {items : List Datum}
    (found : itemsOf? role d = some items) (member : item ∈ items)
    : sizeOf item < sizeOf d := by
  have smaller := List.sizeOf_lt_of_mem member
  obtain ⟨-, rfl | rfl⟩ := itemsOf?_eq_some.mp found
  · simp only [Datum.list.sizeOf_spec]
    omega
  · simp only [Datum.tuple.sizeOf_spec]
    omega

/-- What holds of data without parts, of blocks if of their items, and of nodes if of the data of
their fields, holds of every reading. -/
theorem reading_induction {motive : Role → Datum → Prop}
    (flat : ∀ role d, nodeOf? role d = none → itemsOf? role d = none → motive role d)
    (block : ∀ d items, itemsOf? .block d = some items → (∀ item ∈ items, motive .stmt item)
      → motive .block d)
    (node : ∀ kind d fields, nodeOf? kind.role d = some (kind, fields)
      → (∀ field ∈ kind.fields, ∀ name datum,
          fields.find? field.spellings = some (name, datum) → motive field.role datum)
      → motive kind.role d)
    (role : Role) (d : Datum)
    : motive role d := by
  cases isNode : nodeOf? role d with
  | some found =>
      obtain ⟨kind, fields⟩ := found
      obtain ⟨-, rfl, -⟩ := nodeOf?_eq_some.mp isNode
      refine node kind d fields isNode fun field listed name datum found => ?_
      have smaller := sizeOf_field_lt isNode found
      exact reading_induction flat block node field.role datum
  | none => cases isBlock : itemsOf? role d with
    | none => exact flat role d isNode isBlock
    | some items =>
        obtain ⟨rfl, -⟩ := itemsOf?_eq_some.mp isBlock
        refine block d items isBlock fun item member => ?_
        have smaller := sizeOf_item_lt isBlock member
        exact reading_induction flat block node .stmt item
termination_by sizeOf d

-----------------------------------------------------------------------------------------
-- Locations
-----------------------------------------------------------------------------------------

/-- At a path of a datum that is read in a role, another datum is read in a role of its own: through
the items of blocks, and through the fields of nodes by the spelling that counts. -/
inductive Holds : Role → Datum → List Segment → Role → Datum → Prop where
  | here {role : Role} {d : Datum}
    : Holds role d [] role d
  | item {d item inner : Datum} {items : List Datum} {i : Nat} {path : List Segment} {role : Role}
      (block : itemsOf? .block d = some items)
      (found : items[i]? = some item)
      (below : Holds .stmt item path role inner)
    : Holds .block d (.index i :: path) role inner
  | field {role innerRole : Role} {d datum inner : Datum} {kind : NodeKind} {fields : Fields}
      {field : Field} {name : String} {path : List Segment}
      (node : nodeOf? role d = some (kind, fields))
      (listed : field ∈ kind.fields)
      (found : fields.find? field.spellings = some (name, datum))
      (below : Holds field.role datum path innerRole inner)
    : Holds role d (.name kind.tag :: .name name :: path) innerRole inner

end Document

end ScopedWhile
