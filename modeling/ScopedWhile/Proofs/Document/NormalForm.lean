import ScopedWhile.Proofs.Document.Denotation
import ScopedWhile.Proofs.Document.Edits

/-!
Dumps are normal forms. A tree that is written as data is read back as the same tree, and what is
written has one shape: every node with its tag and then all its fields in the order of the table, in
first spellings, with lists for blocks and doubles for numbers. Loading data and writing them again
therefore puts them into this form, which changes only the data that do not have it yet.
-/

namespace ScopedWhile

namespace Document

-----------------------------------------------------------------------------------------
-- Normal form
-----------------------------------------------------------------------------------------

def NodeKind.keys (kind : NodeKind) : List String :=
  "kind" :: kind.fields.map (·.name)

/-- The keys are those of a node: no other keys, no second spellings, and nothing left out. -/
def Fields.complete (fields : Fields) : Bool :=
  match fields.kind? with
  | some kind => fields.map (·.1) = kind.keys
  | none => false

/-- The keys of a tagged object are complete exactly if they are those of its kind, in order. -/
theorem complete_iff {fields : Fields} {kind : NodeKind}
    (tagged : fields.lookup "kind" = some (.text kind.tag))
    : Fields.complete fields = true ↔ fields.map (·.1) = kind.keys := by
  simp only [Fields.complete, Fields.kind?_of_tag tagged, decide_eq_true_eq]

end Document

mutual

/-- Only complete nodes, lists, texts, booleans and doubles, at every depth. -/
def Datum.isNormal : Datum → Bool
  | .text _ | .boolean _ | .number (.double _) => true
  | .list items => Datum.areNormal items
  | .object fields => Document.Fields.complete fields && Datum.holdNormal fields
  | _ => false

def Datum.areNormal : List Datum → Bool
  | [] => true
  | item :: rest => item.isNormal && Datum.areNormal rest

def Datum.holdNormal : List (String × Datum) → Bool
  | [] => true
  | (_, datum) :: rest => datum.isNormal && Datum.holdNormal rest

end

def Datum.isNormalProgram : Datum → Bool
  | .object [("statements", .list items)] => Datum.areNormal items
  | _ => false

namespace Document

/-- An item of a normal list is normal. -/
theorem isNormal_of_mem {items : List Datum} {item : Datum} (normal : Datum.areNormal items = true)
    (member : item ∈ items)
    : item.isNormal = true := by
  induction items with
  | nil => cases member
  | cons first rest ih =>
      rw [Datum.areNormal, Bool.and_eq_true] at normal
      rcases List.mem_cons.mp member with rfl | later
      · exact normal.1
      · exact ih normal.2 later

/-- A field of a normal object is normal. -/
theorem isNormal_of_lookup {fields : Fields} {name : String} {datum : Datum}
    (normal : Datum.holdNormal fields = true) (found : fields.lookup name = some datum)
    : datum.isNormal = true := by
  induction fields with
  | nil => cases found
  | cons field rest ih =>
      obtain ⟨key, item⟩ := field
      rw [Datum.holdNormal, Bool.and_eq_true] at normal
      rw [List.lookup_cons] at found
      split at found
      · obtain rfl := Option.some.inj found
        exact normal.1
      · exact ih normal.2 found

-----------------------------------------------------------------------------------------
-- Trees are written in normal form
-----------------------------------------------------------------------------------------

/-- Expressions are written as normal data, by induction over the expression. -/
theorem isNormal_expr (e : Expr)
    : e.toDatum.isNormal = true := by
  induction e with
  | boolean value => rfl
  | number value => rfl
  | var name => rfl
  | binary op left right ihLeft ihRight =>
      simp only [Expr.toDatum, Datum.isNormal, Datum.holdNormal, ihLeft, ihRight]
      rfl

mutual

/-- Statements are written as normal data, with the blocks inside of them. -/
theorem isNormal_stmt : (s : Stmt) → s.toDatum.isNormal = true
  | .declare name value => by
      simp only [Stmt.toDatum, Datum.isNormal, Datum.holdNormal, isNormal_expr value]
      rfl
  | .assign name value => by
      simp only [Stmt.toDatum, Datum.isNormal, Datum.holdNormal, isNormal_expr value]
      rfl
  | .branch test whenTrue whenFalse => by
      simp only [Stmt.toDatum, Datum.isNormal, Datum.holdNormal, isNormal_expr test,
        areNormal_stmts whenTrue, areNormal_stmts whenFalse]
      rfl
  | .loop test body => by
      simp only [Stmt.toDatum, Datum.isNormal, Datum.holdNormal, isNormal_expr test,
        areNormal_stmts body]
      rfl
  | .print value => by
      simp only [Stmt.toDatum, Datum.isNormal, Datum.holdNormal, isNormal_expr value]
      rfl

theorem areNormal_stmts : (stmts : List Stmt) → Datum.areNormal (Stmt.toData stmts) = true
  | [] => rfl
  | stmt :: rest => by
      rw [Stmt.toData, Datum.areNormal, isNormal_stmt stmt, areNormal_stmts rest]
      rfl

end

/-- An expression is denoted by the datum it is written as. -/
theorem denotesExpr_toDatum (e : Expr)
    : DenotesExpr e.toDatum e := by
  induction e with
  | boolean value => exact .boolean rfl rfl
  | number value => exact .double rfl rfl
  | var name => exact .var rfl rfl
  | binary op left right ihLeft ihRight => exact .binary rfl rfl rfl ihLeft rfl ihRight

mutual

/-- A statement is denoted by the datum it is written as. -/
theorem denotesStmt_toDatum : (s : Stmt) → DenotesStmt s.toDatum s
  | .declare _ value => .declare rfl rfl rfl (denotesExpr_toDatum value)
  | .assign _ value => .assign rfl rfl rfl (denotesExpr_toDatum value)
  | .branch test whenTrue whenFalse =>
      .branch rfl rfl (denotesExpr_toDatum test) (Or.inl rfl)
        (.list (denotesItems_toData whenTrue)) (Or.inl rfl) (.list (denotesItems_toData whenFalse))
  | .loop test body =>
      .loop rfl rfl (denotesExpr_toDatum test) rfl (.list (denotesItems_toData body))
  | .print value => .print rfl rfl (denotesExpr_toDatum value)

theorem denotesItems_toData : (stmts : List Stmt) → DenotesItems (Stmt.toData stmts) stmts
  | [] => .nil
  | stmt :: rest => .cons (denotesStmt_toDatum stmt) (denotesItems_toData rest)

end

-----------------------------------------------------------------------------------------
-- Nodes are written along the table
-----------------------------------------------------------------------------------------

def dumpAs : (role : Role) → role.Tree → Datum
  | .text => Datum.text
  | .boolean => Datum.boolean
  | .number => fun x => .number (.double x)
  | .operator => fun op => .text (Operator.symbol op)
  | .expr => Expr.toDatum
  | .stmt => Stmt.toDatum
  | .block => fun stmts => .list (Stmt.toData stmts)

def dumpRow : (row : List Field) → Row row → Fields
  | [], _ => []
  | [field], tree => [(field.name, dumpAs field.role tree)]
  | field :: next :: rest, (tree, trees) =>
      (field.name, dumpAs field.role tree) :: dumpRow (next :: rest) trees

/-- A node is written as its tag and, along the table, its parts. -/
theorem dumpAs_assemble (kind : NodeKind) (trees : Row kind.fields)
    : dumpAs kind.role (kind.assemble trees)
      = .object (("kind", .text kind.tag) :: dumpRow kind.fields trees) := by
  cases kind with
  | expr kind => cases kind <;> rfl
  | stmt kind => cases kind <;> rfl

-----------------------------------------------------------------------------------------
-- Normal data are written as they were read
-----------------------------------------------------------------------------------------

/-- Among distinct keys each entry is found by its key. -/
theorem lookup_of_distinct {fields : Fields} (distinct : (fields.map (·.1)).Nodup)
    {entry : String × Datum} (member : entry ∈ fields)
    : fields.lookup entry.1 = some entry.2 := by
  induction fields with
  | nil => cases member
  | cons first rest ih =>
      obtain ⟨key, datum⟩ := first
      rw [List.map_cons, List.nodup_cons] at distinct
      rcases List.mem_cons.mp member with rfl | later
      · exact List.lookup_cons_self
      · have other : entry.1 ≠ key := fun same =>
          distinct.1 (List.mem_map.mpr ⟨entry, later, same⟩)
        rw [List.lookup_cons, beq_false_of_ne other]
        exact ih distinct.2 later

/-- The keys of a node are distinct, the tag among them. -/
theorem NodeKind.keys_distinct (kind : NodeKind)
    : kind.keys.Nodup := by
  cases kind with
  | expr kind => cases kind <;> decide
  | stmt kind => cases kind <;> decide

/-- A field that has its first spelling is read from there. -/
theorem Field.read_of_lookup {origin : Origin} {fields : Fields} {field : Field} {datum : Datum}
    {tree : field.role.Tree} (found : fields.lookup field.name = some datum)
    (read : field.read origin fields = .ok tree)
    : readAs origin field.role datum = .ok tree := by
  simp only [Field.read, Field.spellings, find?_cons, found] at read
  exact under_eq_ok.mp read

/-- A row that is read from complete fields is written back as these fields. By induction over the
row, of which each field is written back. -/
theorem dumpRow_of_read {fields data : Fields} {row : List Field} {trees : Row row}
    (named : data.map (·.1) = row.map (·.name))
    (held : ∀ entry ∈ data, fields.lookup entry.1 = some entry.2)
    (fixed : ∀ field ∈ row, ∀ datum tree, fields.lookup field.name = some datum
      → readAs .data field.role datum = .ok tree → dumpAs field.role tree = datum)
    (read : readRow .data fields row = .ok trees)
    : dumpRow row trees = data := by
  induction row generalizing data with
  | nil =>
      rw [List.map_nil, List.map_eq_nil_iff] at named
      rw [named]
      rfl
  | cons field rest ih =>
      rw [List.map_cons, List.map_eq_cons_iff] at named
      obtain ⟨⟨key, datum⟩, later, rfl, rfl, names⟩ := named
      have found : fields.lookup field.name = some datum := held (field.name, datum) List.mem_cons_self
      have first {tree : field.role.Tree} (read : field.read .data fields = .ok tree)
          : dumpAs field.role tree = datum :=
        fixed field List.mem_cons_self datum tree found (Field.read_of_lookup found read)
      cases rest with
      | nil =>
          obtain rfl := List.map_eq_nil_iff.mp names
          exact congrArg (fun d => [(field.name, d)]) (first read)
      | cons next rest =>
          obtain ⟨tree, trees⟩ := trees
          obtain ⟨readFirst, readLater⟩ := both_eq_ok.mp read
          have dumpLater : dumpRow (next :: rest) trees = later :=
            ih names (fun entry member => held entry (List.mem_cons_of_mem _ member))
              (fun field listed => fixed field (List.mem_cons_of_mem _ listed)) readLater
          rw [dumpRow, first readFirst, dumpLater]

/-- Items that are written back one by one are written back as a whole. -/
theorem toData_of_read {index : Nat} {items : List Datum} {stmts : List Stmt}
    (fixed : ∀ item ∈ items, ∀ stmt, readStmt .data item = .ok stmt → stmt.toDatum = item)
    (read : readItems .data index items = .ok stmts)
    : Stmt.toData stmts = items := by
  induction items generalizing index stmts with
  | nil =>
      rw [readItems] at read
      cases read
      rfl
  | cons item rest ih =>
      rw [readItems] at read
      obtain ⟨⟨stmt, later⟩, parts, rfl⟩ := map_eq_ok.mp read
      obtain ⟨readItem, readRest⟩ := both_eq_ok.mp parts
      have first := fixed item List.mem_cons_self stmt (under_eq_ok.mp readItem)
      have others := ih (fun item member => fixed item (List.mem_cons_of_mem _ member)) readRest
      rw [Stmt.toData, first, others]

/-- A normal datum without parts is what its reading is written as. -/
theorem dump_of_flat {role : Role} {d : Datum} (noNode : nodeOf? role d = none)
    (noItems : itemsOf? role d = none) (normal : d.isNormal = true) {tree : role.Tree}
    (read : readAs .data role d = .ok tree)
    : dumpAs role tree = d := by
  cases role with
  | text =>
      cases d with
      | text s =>
          cases read
          rfl
      | bytes content => cases normal
      | _ => cases read
  | boolean => exact (readBoolean_eq_ok.mp read).symm
  | number =>
      rcases readNumber_eq_ok.mp read with rfl | ⟨n, rank, rfl, -⟩
      · rfl
      · cases normal
  | operator =>
      cases d with
      | text s => exact ((@readOperator_eq_ok (.text s) rfl tree).mp read).symm
      | bytes content => cases normal
      | _ => cases read
  | expr | stmt =>
      rw [readAs_of_noNode .data (by simp) noNode] at read
      cases read
  | block =>
      change readStmts .data d = .ok tree at read
      rw [readStmts_of_noItems .data noItems] at read
      cases read

/-- A normal datum is what its reading is written as. By induction over the reading; an integer
literal is not normal, and so nothing is rounded. -/
theorem dump_of_read {role : Role} {d : Datum} (normal : d.isNormal = true) {tree : role.Tree}
    (read : readAs .data role d = .ok tree)
    : dumpAs role tree = d := by
  induction role, d using reading_induction with
  | flat role d noNode noItems => exact dump_of_flat noNode noItems normal read
  | block d items isBlock ih =>
      rw [readAs_items isBlock] at read
      obtain ⟨-, rfl | rfl⟩ := itemsOf?_eq_some.mp isBlock
      · rw [Datum.isNormal] at normal
        refine congrArg Datum.list (toData_of_read (fun item member stmt readItem => ?_) read)
        exact ih item member (isNormal_of_mem normal member) readItem
      · cases normal
  | node kind d fields isNode ih =>
      rw [readAs_node isNode] at read
      obtain ⟨trees, readParts, rfl⟩ := map_eq_ok.mp (under_eq_ok.mp read)
      obtain ⟨rfl, -, tagged⟩ := nodeOf?_eq_some.mp isNode
      rw [Datum.isNormal, Bool.and_eq_true, complete_iff tagged] at normal
      obtain ⟨keys, holds⟩ := normal
      have distinct : (fields.map (·.1)).Nodup := keys ▸ kind.keys_distinct
      obtain ⟨⟨key, tag⟩, data, rfl, rfl, named⟩ := List.map_eq_cons_iff.mp keys
      obtain rfl := Option.some.inj (List.lookup_cons_self.symm.trans tagged)
      rw [dumpAs_assemble]
      refine congrArg (fun data => Datum.object (("kind", .text kind.tag) :: data)) ?_
      refine dumpRow_of_read named (fun entry member => ?_) (fun field listed datum tree found => ?_)
        readParts
      · exact lookup_of_distinct distinct (List.mem_cons_of_mem _ member)
      · refine ih field listed field.name datum ?_ (isNormal_of_lookup holds found)
        rw [Field.spellings, find?_cons, found]

-----------------------------------------------------------------------------------------
-- Loading as one given kind
-----------------------------------------------------------------------------------------

def readKind (origin : Origin) : (kind : NodeKind) → Datum → Checked kind.role.Tree
  | .expr kind => readExprAs origin kind
  | .stmt kind => readStmtAs origin kind

/-- The trees of a kind. -/
def NodeKind.Makes : (kind : NodeKind) → kind.role.Tree → Prop
  | .expr kind, e => Expr.kind e = kind
  | .stmt kind, s => Stmt.kind s = kind

/-- The reader of a kind makes nodes of that kind. -/
theorem makes_of_readFields {origin : Origin} {kind : NodeKind} {fields : Fields}
    {tree : kind.role.Tree} (read : readFields origin kind fields = .ok tree)
    : kind.Makes tree := by
  rw [readFields_eq] at read
  obtain ⟨trees, -, rfl⟩ := map_eq_ok.mp read
  cases kind with
  | expr kind => cases kind <;> rfl
  | stmt kind => cases kind <;> rfl

/-- A tag is accepted if it is absent or the right one. -/
theorem checkTag_eq_ok {fields : Fields} {tag : String}
    : checkTag fields tag = .ok ()
      ↔ fields.lookup "kind" = none ∨ fields.lookup "kind" = some (.text tag) := by
  unfold checkTag optional
  split
  next name d found =>
    obtain ⟨listed, tagged⟩ := lookup_of_find? found
    obtain rfl := List.mem_singleton.mp listed
    rw [under_eq_ok, tagged]
    cases d with
    | text s => by_cases same : s = tag <;> simp [same, Checked.issue]
    | _ => simp [Checked.issue]
  next missing => simp [find?_eq_none.mp missing "kind" List.mem_cons_self]

/-- A node of a fixed kind is read from an object without another tag. -/
theorem readKind_eq_ok {origin : Origin} {kind : NodeKind} {d : Datum} {tree : kind.role.Tree}
    : readKind origin kind d = .ok tree
      ↔ ∃ fields, d = .object fields ∧ checkTag fields kind.tag = .ok ()
        ∧ readFields origin kind fields = .ok tree := by
  have object {fields : Fields} : readKind origin kind (.object fields)
      = ((checkTag fields kind.tag).both (readFields origin kind fields)).map (·.2) := by
    cases kind <;> rfl
  cases d with
  | object fields =>
      simp only [object, map_eq_ok, both_eq_ok, Prod.exists, Datum.object.injEq]
      constructor
      · rintro ⟨_, _, ⟨tagged, read⟩, rfl⟩
        exact ⟨fields, rfl, tagged, read⟩
      · rintro ⟨_, rfl, tagged, read⟩
        exact ⟨(), tree, ⟨tagged, read⟩, rfl⟩
  | _ =>
      constructor
      · intro read
        cases kind <;> cases read
      · rintro ⟨fields, same, -⟩
        cases same

/-- With its tag, a node is loaded as its kind just as it is loaded among all kinds. -/
theorem readKind_of_tag {origin : Origin} {kind : NodeKind} {fields : Fields}
    {tree : kind.role.Tree} (tagged : fields.lookup "kind" = some (.text kind.tag))
    : readKind origin kind (.object fields) = .ok tree
      ↔ readAs origin kind.role (.object fields) = .ok tree := by
  have isNode : nodeOf? kind.role (.object fields) = some (kind, fields) :=
    nodeOf?_eq_some.mpr ⟨rfl, rfl, tagged⟩
  rw [readAs_node isNode, ← readFields_eq, under_eq_ok, readKind_eq_ok]
  constructor
  · rintro ⟨_, ⟨⟩, -, read⟩
    exact read
  · intro read
    exact ⟨fields, rfl, checkTag_eq_ok.mpr (Or.inr tagged), read⟩

/-- Where any node may stand, the tag is that of the node made. -/
theorem tag_of_read {origin : Origin} {kind : NodeKind} {d : Datum} {tree : kind.role.Tree}
    (made : kind.Makes tree) (read : readAs origin kind.role d = .ok tree)
    : ∃ fields, d = .object fields ∧ fields.lookup "kind" = some (.text kind.tag) := by
  cases kind with
  | expr kind =>
      obtain ⟨fields, other, rfl, tagged, readParts⟩ := readExpr_eq_ok.mp read
      have alsoMade : Expr.kind tree = other := @makes_of_readFields origin (.expr other) _ _ readParts
      obtain rfl : other = kind := alsoMade.symm.trans made
      exact ⟨fields, rfl, tagged⟩
  | stmt kind =>
      obtain ⟨fields, other, rfl, tagged, readParts⟩ := readStmt_eq_ok.mp read
      have alsoMade : Stmt.kind tree = other := @makes_of_readFields origin (.stmt other) _ _ readParts
      obtain rfl : other = kind := alsoMade.symm.trans made
      exact ⟨fields, rfl, tagged⟩

-----------------------------------------------------------------------------------------
-- Loading and writing
-----------------------------------------------------------------------------------------

/-- What a datum is loaded as. -/
inductive Entry where
  | expr
  | stmt
  | only (kind : NodeKind)
  | node
  /-- A program from the list of its statements. -/
  | nodes
  | program

namespace Entry

def Tree : Entry → Type
  | .expr => Expr
  | .stmt => Stmt
  | .only kind => kind.role.Tree
  | .node => Node
  | .nodes | .program => Program

def load (origin : Origin) : (entry : Entry) → Datum → Checked entry.Tree
  | .expr => readExpr origin
  | .stmt => readStmt origin
  | .only kind => readKind origin kind
  | .node => readNode origin
  | .nodes => fun d => (readStmts origin d).map Program.mk
  | .program => readProgram origin

def dump : (entry : Entry) → entry.Tree → Datum
  | .expr => Expr.toDatum
  | .stmt => Stmt.toDatum
  | .only kind => dumpAs kind.role
  | .node => Node.toDatum
  | .nodes => fun p => .list (Stmt.toData (Program.statements p))
  | .program => Program.toDatum

/-- The trees that a datum can be loaded as: those of the given kind, if there is one. -/
def Admits : (entry : Entry) → entry.Tree → Prop
  | .only kind, tree => kind.Makes tree
  | _, _ => True

def isNormal : Entry → Datum → Bool
  | .program => Datum.isNormalProgram
  | _ => Datum.isNormal

/-- Loads a datum and writes it again. -/
def normalize (entry : Entry) (d : Datum) : Checked Datum :=
  (entry.load .data d).map entry.dump

end Entry

/-- A program is read from its statements, and has none if the field is absent. -/
theorem readProgram_eq_ok {origin : Origin} {fields : Fields} {p : Program}
    : readProgram origin (.object fields) = .ok p
      ↔ (∃ d, fields.lookup "statements" = some d ∧ readStmts origin d = .ok p.statements)
        ∨ fields.lookup "statements" = none ∧ p.statements = [] := by
  have absent : fields.find? ["statements"] = none ↔ fields.lookup "statements" = none := by
    simp [find?_eq_none]
  rw [readProgram, map_eq_ok]
  simp only [optional_eq_ok, find?_one, absent]
  constructor
  · rintro ⟨stmts, found | ⟨missing, rfl⟩, rfl⟩
    · exact Or.inl found
    · exact Or.inr ⟨missing, rfl⟩
  · rintro (found | ⟨missing, empty⟩)
    · exact ⟨p.statements, Or.inl found, rfl⟩
    · exact ⟨p.statements, Or.inr ⟨missing, empty.symm⟩, rfl⟩

namespace Entry

/-- What is written is loaded back, at every entry point. -/
theorem load_dump {entry : Entry} {tree : entry.Tree} (admitted : entry.Admits tree)
    : entry.load .data (entry.dump tree) = .ok tree := by
  have stmts (stmts : List Stmt) : readStmts .data (.list (Stmt.toData stmts)) = .ok stmts :=
    readStmts_of_denotes (.list (denotesItems_toData stmts))
  cases entry with
  | expr => exact readExpr_of_denotes (denotesExpr_toDatum tree)
  | stmt => exact readStmt_of_denotes (denotesStmt_toDatum tree)
  | only kind =>
      have read : readAs .data kind.role (dumpAs kind.role tree) = .ok tree := by
        cases kind with
        | expr kind => exact readExpr_of_denotes (denotesExpr_toDatum tree)
        | stmt kind => exact readStmt_of_denotes (denotesStmt_toDatum tree)
      obtain ⟨fields, same, tagged⟩ := tag_of_read admitted read
      change readKind .data kind (dumpAs kind.role tree) = .ok tree
      rw [same] at read ⊢
      exact (readKind_of_tag tagged).mpr read
  | node =>
      refine readNode_eq_ok.mpr ?_
      cases tree with
      | expr e => exact readExpr_of_denotes (denotesExpr_toDatum e)
      | stmt s => exact readStmt_of_denotes (denotesStmt_toDatum s)
  | nodes => exact map_eq_ok.mpr ⟨tree.statements, stmts tree.statements, rfl⟩
  | program => exact readProgram_eq_ok.mpr (Or.inl ⟨_, rfl, stmts tree.statements⟩)

/-- What is written is normal. -/
theorem isNormal_dump (entry : Entry) (tree : entry.Tree)
    : entry.isNormal (entry.dump tree) = true := by
  cases entry with
  | expr => exact isNormal_expr tree
  | stmt => exact isNormal_stmt tree
  | only kind => cases kind with
    | expr kind => exact isNormal_expr tree
    | stmt kind => exact isNormal_stmt tree
  | node => cases tree with
    | expr e => exact isNormal_expr e
    | stmt s => exact isNormal_stmt s
  | nodes => exact areNormal_stmts tree.statements
  | program => exact areNormal_stmts tree.statements

/-- What is loaded is of the kind asked for. -/
theorem admits_of_load {entry : Entry} {origin : Origin} {d : Datum} {tree : entry.Tree}
    (loaded : entry.load origin d = .ok tree)
    : entry.Admits tree := by
  cases entry with
  | only kind =>
      obtain ⟨fields, -, -, read⟩ := readKind_eq_ok.mp loaded
      exact makes_of_readFields read
  | _ => trivial

/-- Loading a normal datum and writing it gives the datum back. -/
theorem dump_of_load {entry : Entry} {d : Datum} {tree : entry.Tree}
    (normal : entry.isNormal d = true) (loaded : entry.load .data d = .ok tree)
    : entry.dump tree = d := by
  cases entry with
  | expr => exact @dump_of_read .expr d normal tree loaded
  | stmt => exact @dump_of_read .stmt d normal tree loaded
  | only kind =>
      obtain ⟨fields, rfl, checked, -⟩ := readKind_eq_ok.mp loaded
      have tagged : fields.lookup "kind" = some (.text kind.tag) := by
        refine (checkTag_eq_ok.mp checked).resolve_left fun untagged => ?_
        simp [isNormal, Datum.isNormal, Fields.complete, Fields.kind?, untagged] at normal
      exact dump_of_read normal ((readKind_of_tag tagged).mp loaded)
  | node =>
      have read := readNode_eq_ok.mp loaded
      cases tree with
      | expr e => exact @dump_of_read .expr d normal e read
      | stmt s => exact @dump_of_read .stmt d normal s read
  | nodes =>
      obtain ⟨stmts, read, rfl⟩ := map_eq_ok.mp loaded
      exact @dump_of_read .block d normal stmts read
  | program =>
      change Datum.isNormalProgram d = true at normal
      unfold Datum.isNormalProgram at normal
      split at normal
      next items =>
        rcases readProgram_eq_ok.mp loaded with ⟨_, ⟨⟩, read⟩ | ⟨absent, -⟩
        · have same := @dump_of_read .block (.list items) normal tree.statements read
          exact congrArg (fun d => Datum.object [("statements", d)]) same
        · cases absent
      next => cases normal

end Entry

/-- Loading undoes dumping, for every tree and every way to load it. Whatever is loaded from any data
is loaded again from its dump, so that loading and dumping takes data to a normal form and leaves
exactly the data in normal form as they are. -/
theorem loading_undoes_dumping (entry : Entry)
    : (∀ tree, entry.Admits tree
        → entry.load .data (entry.dump tree) = .ok tree
          ∧ entry.isNormal (entry.dump tree) = true)
      ∧ (∀ origin d tree, entry.load origin d = .ok tree
        → entry.load .data (entry.dump tree) = .ok tree)
      ∧ ∀ d n, entry.normalize d = .ok n
        → entry.isNormal n = true
          ∧ entry.load .data n = entry.load .data d
          ∧ entry.normalize n = .ok n
          ∧ (n = d ↔ entry.isNormal d = true) := by
  have again {origin : Origin} {d : Datum} {tree : entry.Tree} (loaded : entry.load origin d = .ok tree)
      : entry.load .data (entry.dump tree) = .ok tree :=
    entry.load_dump (entry.admits_of_load loaded)
  refine ⟨fun tree admitted => ⟨entry.load_dump admitted, entry.isNormal_dump tree⟩,
    fun origin d tree => again, fun d n normalized => ?_⟩
  obtain ⟨tree, loaded, rfl⟩ := map_eq_ok.mp normalized
  refine ⟨entry.isNormal_dump tree, (again loaded).trans loaded.symm,
    map_eq_ok.mpr ⟨tree, again loaded, rfl⟩, ?_, fun normal => entry.dump_of_load normal loaded⟩
  intro same
  rw [← same]
  exact entry.isNormal_dump tree

/-- A branch with a key that nothing asks for, the second spelling of its part, a tuple for a block
and an integer for a number, and without its other part. -/
def untidyBranch : Datum :=
  .object
    [("comment", .null),
      ("truePart", .tuple
        [.object
          [("expression", .object [("value", .number (.int 2)), ("kind", .text "number")]),
            ("kind", .text "print")]]),
      ("kind", .text "if"),
      ("test", .object [("kind", .text "variable"), ("name", .text "x")])]

def tidyBranch : Datum :=
  .object
    [("kind", .text "if"),
      ("test", .object [("kind", .text "variable"), ("name", .text "x")]),
      ("true_part", .list
        [.object
          [("kind", .text "print"),
            ("expression", .object
              [("kind", .text "number"), ("value", .number (.double (Binary64.ofInt 2)))])]]),
      ("false_part", .list [])]

/-- An untidy branch becomes tidy when it is loaded and written, and a tidy one stays as it is. -/
theorem loading_undoes_dumping_untidyBranch
    : Entry.normalize .stmt untidyBranch = .ok tidyBranch
      ∧ Entry.isNormal .stmt untidyBranch = false
      ∧ Entry.isNormal .stmt tidyBranch = true
      ∧ Entry.normalize .stmt tidyBranch = .ok tidyBranch
      ∧ readStmtAs .data .branch tidyBranch
        = .ok (.branch (.var "x") [.print (.number (Binary64.ofInt 2))] []) := by
  have rank : Binary64.ofInt 2 = .finite (decide ((2 : Int) < 0)) ⟨1024 * binade, by decide⟩ := by
    decide +kernel
  have nearest := (ofInt_eq_finite.mp rank).1
  have denotes : DenotesStmt untidyBranch
      (.branch (.var "x") [.print (.number (Binary64.ofInt 2))] []) := by
    rw [rank]
    exact .branchWithout rfl rfl (.var rfl rfl) (Or.inr ⟨rfl, rfl⟩)
      (.tuple (.cons (.print rfl rfl (.int rfl rfl nearest)) .nil)) ⟨rfl, rfl⟩
  have normalized : Entry.normalize .stmt untidyBranch = .ok tidyBranch :=
    map_eq_ok.mpr ⟨_, readStmt_of_denotes denotes, rfl⟩
  obtain ⟨normal, -, kept, -⟩ := (loading_undoes_dumping .stmt).2.2 _ _ normalized
  have reloaded := ((loading_undoes_dumping (.only (.stmt .branch))).1
    (Stmt.branch (.var "x") [.print (.number (Binary64.ofInt 2))] []) rfl).1
  exact ⟨normalized, by decide, normal, kept, reloaded⟩

end Document

end ScopedWhile
