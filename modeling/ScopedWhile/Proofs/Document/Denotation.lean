import Mathlib.Logic.Basic
import ScopedWhile.Proofs.Document.Schema
import ScopedWhile.Proofs.Number.Rounding

/-!
Which data are programs. The relations below say of a datum which tree it denotes, without the
reader: by its tag, its fields and the kinds of their data. The reader accepts exactly the data that
denote something, returns what they denote, and reports at least one issue for all others.
-/

namespace ScopedWhile

mutual

/-- No bytes at any depth. Only bytes can stand for a text without being one. -/
def Datum.byteless : Datum → Bool
  | .bytes _ => false
  | .list items => Datum.bytelessItems items
  | .tuple items => Datum.bytelessItems items
  | .object fields => Datum.bytelessFields fields
  | _ => true

def Datum.bytelessItems : List Datum → Bool
  | [] => true
  | item :: rest => item.byteless && Datum.bytelessItems rest

def Datum.bytelessFields : List (String × Datum) → Bool
  | [] => true
  | (_, datum) :: rest => datum.byteless && Datum.bytelessFields rest

end

namespace Document
open Binary64 (IsNearest)

-----------------------------------------------------------------------------------------
-- What a datum denotes
-----------------------------------------------------------------------------------------

/-- The datum of a field with two spellings, the second of which counts if the first is absent. -/
def Fields.Spells (fields : Fields) (first second : String) (datum : Datum) : Prop :=
  fields.lookup first = some datum
  ∨ fields.lookup first = none ∧ fields.lookup second = some datum

inductive DenotesExpr : Datum → Expr → Prop where
  | boolean {fields : Fields} {b : Bool}
      (kind : fields.lookup "kind" = some (.text "boolean"))
      (value : fields.lookup "value" = some (.boolean b))
    : DenotesExpr (.object fields) (.boolean b)
  | double {fields : Fields} {x : Binary64}
      (kind : fields.lookup "kind" = some (.text "number"))
      (value : fields.lookup "value" = some (.number (.double x)))
    : DenotesExpr (.object fields) (.number x)
  /-- An integer is a literal only if the double nearest to it is finite. -/
  | int {fields : Fields} {n : Int} {rank : Fin rankLimit}
      (kind : fields.lookup "kind" = some (.text "number"))
      (value : fields.lookup "value" = some (.number (.int n)))
      (nearest : IsNearest (n.natAbs * unitsPerOne) 1 rank)
    : DenotesExpr (.object fields) (.number (.finite (decide (n < 0)) rank))
  | var {fields : Fields} {name : String}
      (kind : fields.lookup "kind" = some (.text "variable"))
      (named : fields.lookup "name" = some (.text name))
    : DenotesExpr (.object fields) (.var name)
  | binary {fields : Fields} {op : Operator} {l r : Datum} {left right : Expr}
      (kind : fields.lookup "kind" = some (.text "operator"))
      (symbol : fields.lookup "operator" = some (.text op.symbol))
      (hasLeft : fields.lookup "left" = some l)
      (denotesLeft : DenotesExpr l left)
      (hasRight : fields.lookup "right" = some r)
      (denotesRight : DenotesExpr r right)
    : DenotesExpr (.object fields) (.binary op left right)

mutual

inductive DenotesStmt : Datum → Stmt → Prop where
  | declare {fields : Fields} {name : String} {d : Datum} {value : Expr}
      (kind : fields.lookup "kind" = some (.text "let"))
      (named : fields.lookup "name" = some (.text name))
      (hasValue : fields.lookup "expression" = some d)
      (denotesValue : DenotesExpr d value)
    : DenotesStmt (.object fields) (.declare name value)
  | assign {fields : Fields} {name : String} {d : Datum} {value : Expr}
      (kind : fields.lookup "kind" = some (.text "assignment"))
      (named : fields.lookup "name" = some (.text name))
      (hasValue : fields.lookup "expression" = some d)
      (denotesValue : DenotesExpr d value)
    : DenotesStmt (.object fields) (.assign name value)
  | branch {fields : Fields} {d t f : Datum} {test : Expr} {whenTrue whenFalse : List Stmt}
      (kind : fields.lookup "kind" = some (.text "if"))
      (hasTest : fields.lookup "test" = some d)
      (denotesTest : DenotesExpr d test)
      (hasTrue : fields.Spells "true_part" "truePart" t)
      (denotesTrue : DenotesBlock t whenTrue)
      (hasFalse : fields.Spells "false_part" "falsePart" f)
      (denotesFalse : DenotesBlock f whenFalse)
    : DenotesStmt (.object fields) (.branch test whenTrue whenFalse)
  | branchWithout {fields : Fields} {d t : Datum} {test : Expr} {whenTrue : List Stmt}
      (kind : fields.lookup "kind" = some (.text "if"))
      (hasTest : fields.lookup "test" = some d)
      (denotesTest : DenotesExpr d test)
      (hasTrue : fields.Spells "true_part" "truePart" t)
      (denotesTrue : DenotesBlock t whenTrue)
      (noFalse : fields.lookup "false_part" = none ∧ fields.lookup "falsePart" = none)
    : DenotesStmt (.object fields) (.branch test whenTrue [])
  | loop {fields : Fields} {d b : Datum} {test : Expr} {body : List Stmt}
      (kind : fields.lookup "kind" = some (.text "while"))
      (hasTest : fields.lookup "test" = some d)
      (denotesTest : DenotesExpr d test)
      (hasBody : fields.lookup "body" = some b)
      (denotesBody : DenotesBlock b body)
    : DenotesStmt (.object fields) (.loop test body)
  | print {fields : Fields} {d : Datum} {value : Expr}
      (kind : fields.lookup "kind" = some (.text "print"))
      (hasValue : fields.lookup "expression" = some d)
      (denotesValue : DenotesExpr d value)
    : DenotesStmt (.object fields) (.print value)

inductive DenotesBlock : Datum → List Stmt → Prop where
  | list {items : List Datum} {stmts : List Stmt} (denotes : DenotesItems items stmts)
    : DenotesBlock (.list items) stmts
  | tuple {items : List Datum} {stmts : List Stmt} (denotes : DenotesItems items stmts)
    : DenotesBlock (.tuple items) stmts

/-- Item by item, in the same order. -/
inductive DenotesItems : List Datum → List Stmt → Prop where
  | nil
    : DenotesItems [] []
  | cons {item : Datum} {items : List Datum} {stmt : Stmt} {stmts : List Stmt}
      (head : DenotesStmt item stmt) (tail : DenotesItems items stmts)
    : DenotesItems (item :: items) (stmt :: stmts)

end

/-- The fields of data without bytes are without bytes, by induction over the fields. -/
theorem byteless_of_lookup {fields : Fields} {name : String} {datum : Datum}
    (byteless : Datum.bytelessFields fields) (found : fields.lookup name = some datum)
    : datum.byteless := by
  induction fields with
  | nil => simp at found
  | cons field rest ih =>
      obtain ⟨key, item⟩ := field
      rw [Datum.bytelessFields, Bool.and_eq_true] at byteless
      rw [List.lookup_cons] at found
      split at found
      · obtain rfl := Option.some.inj found
        exact byteless.1
      · exact ih byteless.2 found

theorem byteless_of_spells {fields : Fields} {first second : String} {datum : Datum}
    (byteless : Datum.bytelessFields fields) (spelled : fields.Spells first second datum)
    : datum.byteless := by
  rcases spelled with found | ⟨-, found⟩ <;> exact byteless_of_lookup byteless found

/-- A field under either spelling is smaller than all the fields. -/
theorem sizeOf_spells_lt {fields : Fields} {first second : String} {datum : Datum}
    (spelled : fields.Spells first second datum)
    : sizeOf datum < sizeOf fields := by
  rcases spelled with found | ⟨-, found⟩ <;> exact sizeOf_lookup_lt found

-----------------------------------------------------------------------------------------
-- When the parts of a reading succeed
-----------------------------------------------------------------------------------------

section
variable {α β : Type}

theorem map_eq_ok {checked : Checked α} {f : α → β} {b : β}
    : checked.map f = .ok b ↔ ∃ a, checked = .ok a ∧ f a = b := by
  cases checked <;> simp [Except.map]

/-- A segment in front of the issues changes nothing about success. -/
theorem under_eq_ok {checked : Checked α} {segment : Segment} {a : α}
    : checked.under segment = .ok a ↔ checked = .ok a := by
  cases checked with
  | ok b => rfl
  | error issues => constructor <;> nofun

/-- Two readings succeed together exactly if each of them does. -/
theorem both_eq_ok {first : Checked α} {second : Checked β} {pair : α × β}
    : first.both second = .ok pair ↔ first = .ok pair.1 ∧ second = .ok pair.2 := by
  cases first <;> cases second <;> simp [Checked.both, Prod.ext_iff]

variable {fields : Fields} {names : List String} {read : Datum → Checked α} {a : α}

/-- A required field is read exactly if it is there and its datum is read. -/
theorem required_eq_ok
    : required fields names (fun d _ => read d) = .ok a
      ↔ ∃ d, (∃ name, fields.find? names = some (name, d)) ∧ read d = .ok a := by
  unfold required
  split
  next name d found => simp [found, under_eq_ok]
  next absent => simp [absent, under_eq_ok, Checked.issue]

/-- A field that may be absent is read, or stands for what it is when absent. -/
theorem optional_eq_ok {absent : α}
    : optional fields names absent (fun d _ => read d) = .ok a
      ↔ (∃ d, (∃ name, fields.find? names = some (name, d)) ∧ read d = .ok a)
        ∨ fields.find? names = none ∧ absent = a := by
  unfold optional
  split
  next name d found => simp [found, under_eq_ok]
  next missing => simp [missing]

theorem find?_one {name : String} {d : Datum}
    : (∃ spelling, fields.find? [name] = some (spelling, d)) ↔ fields.lookup name = some d := by
  cases present : fields.lookup name <;>
    simp only [Fields.find?, List.findSome?, present] <;> simp

/-- Of two spellings the second is asked for only if the first is absent. -/
theorem find?_two {first second : String} {d : Datum}
    : (∃ spelling, fields.find? [first, second] = some (spelling, d))
      ↔ fields.Spells first second d := by
  cases present : fields.lookup first <;> cases other : fields.lookup second <;>
    simp only [Fields.find?, Fields.Spells, List.findSome?, present, other] <;> simp

theorem find?_two_eq_none {first second : String}
    : fields.find? [first, second] = none
      ↔ fields.lookup first = none ∧ fields.lookup second = none := by
  cases present : fields.lookup first <;> cases other : fields.lookup second <;>
    simp only [Fields.find?, List.findSome?, present, other] <;> simp

end

/-- Without bytes, only a text is read as text. -/
theorem readText_eq_ok {datum : Datum} (byteless : datum.byteless) {s : String}
    : readText datum = .ok s ↔ datum = .text s := by
  cases datum <;> simp_all [readText, Checked.issue, Datum.byteless]

theorem readBoolean_eq_ok {datum : Datum} {b : Bool}
    : readBoolean datum = .ok b ↔ datum = .boolean b := by
  cases datum <;> simp [readBoolean, Checked.issue]

/-- A symbol selects its operator, by a look through the table of symbols. -/
theorem ofSymbol?_eq_some {symbol : String} {op : Operator}
    : Operator.ofSymbol? symbol = some op ↔ symbol = op.symbol := by
  constructor
  · intro found
    have same := List.find?_some found
    exact (of_decide_eq_true same).symm
  · rintro rfl
    cases op <;> decide

/-- Without bytes, an operator is read exactly from its symbol. -/
theorem readOperator_eq_ok {datum : Datum} (byteless : datum.byteless) {op : Operator}
    : readOperator datum = .ok op ↔ datum = .text op.symbol := by
  cases datum with
  | text s =>
      have symbol := @ofSymbol?_eq_some s op
      cases found : Operator.ofSymbol? s <;>
        simp_all [readOperator, readText, Checked.issue]
  | bytes _ => simp [Datum.byteless] at byteless
  | _ => simp [readOperator, readText, Checked.issue]

/-- The conversion of an integer is finite exactly if a finite double is nearest to it. -/
theorem ofInt_eq_finite {n : Int} {negative : Bool} {rank : Fin rankLimit}
    : Binary64.ofInt n = .finite negative rank
      ↔ IsNearest (n.natAbs * unitsPerOne) 1 rank ∧ negative = decide (n < 0) := by
  rw [Binary64.isNearest_iff Nat.one_pos, Binary64.ofInt, Binary64.ofRatio, Binary64.ofRank]
  split
  next fits => simp only [Binary64.finite.injEq, Fin.ext_iff, and_comm, eq_comm]
  next large =>
    have := rank.isLt
    simp only [reduceCtorEq, false_iff]
    omega

/-- A number is read from a double or from an integer with a finite double nearest to it. -/
theorem readNumber_eq_ok {datum : Datum} {x : Binary64}
    : readNumber .data datum = .ok x
      ↔ datum = .number (.double x)
        ∨ ∃ (n : Int) (rank : Fin rankLimit), datum = .number (.int n)
          ∧ IsNearest (n.natAbs * unitsPerOne) 1 rank ∧ x = .finite (decide (n < 0)) rank := by
  cases datum with
  | number number => cases number with
    | double y => simp [readNumber]
    | int n =>
        simp only [readNumber, Datum.number.injEq, Number.int.injEq, reduceCtorEq, false_or,
          true_and]
        cases value : Binary64.ofInt n with
        | finite negative rank =>
            obtain ⟨nearest, rfl⟩ := ofInt_eq_finite.mp value
            constructor
            · rintro ⟨⟩
              exact ⟨n, rank, rfl, nearest, rfl⟩
            · rintro ⟨_, other, rfl, also, rfl⟩
              have same : rank = other := Fin.ext (nearest.unique also Nat.one_pos)
              rw [same]
              rfl
        | infinite negative =>
            constructor
            · rintro ⟨⟩
            · rintro ⟨_, rank, rfl, nearest, rfl⟩
              rw [ofInt_eq_finite.mpr ⟨nearest, rfl⟩] at value
              cases value
        | nan =>
            rw [Binary64.ofInt, Binary64.ofRatio, Binary64.ofRank] at value
            split at value <;> cases value
  | _ => simp [readNumber, Checked.issue]

/-- An expression is read exactly from an object with a known tag whose fields are read. -/
theorem readExpr_eq_ok {origin : Origin} {datum : Datum} {e : Expr}
    : readExpr origin datum = .ok e
      ↔ ∃ fields kind, datum = .object fields ∧ fields.lookup "kind" = some (.text kind.tag)
        ∧ readExprFields origin kind fields = .ok e := by
  cases datum with
  | object fields =>
      rw [readExpr]
      cases tagged : fields.lookup "kind" with
      | none => simp [Checked.issue, tagged]
      | some tag =>
          cases known : exprKind? tag with
          | none => simp [Checked.issue, tagged, ← exprKind?_eq_some, known]
          | some kind => simp [under_eq_ok, tagged, ← exprKind?_eq_some, known]
  | _ => simp [readExpr, Checked.issue]

/-- A statement is read exactly from an object with a known tag whose fields are read. -/
theorem readStmt_eq_ok {origin : Origin} {datum : Datum} {s : Stmt}
    : readStmt origin datum = .ok s
      ↔ ∃ fields kind, datum = .object fields ∧ fields.lookup "kind" = some (.text kind.tag)
        ∧ readStmtFields origin kind fields = .ok s := by
  cases datum with
  | object fields =>
      rw [readStmt]
      cases tagged : fields.lookup "kind" with
      | none => simp [Checked.issue, tagged]
      | some tag =>
          cases known : stmtKind? tag with
          | none => simp [Checked.issue, tagged, ← stmtKind?_eq_some, known]
          | some kind => simp [under_eq_ok, tagged, ← stmtKind?_eq_some, known]
  | _ => simp [readStmt, Checked.issue]

/-- Where either kind of node may stand, the tag says which one is read: no tag marks both. -/
theorem readNode_eq_ok {origin : Origin} {d : Datum} {node : Node}
    : readNode origin d = .ok node
      ↔ match node with
        | .expr e => readExpr origin d = .ok e
        | .stmt s => readStmt origin d = .ok s := by
  have exprTag {e : Expr} (read : readExpr origin d = .ok e)
      : ∃ fields, d = .object fields ∧ ((fields.lookup "kind").bind exprKind?).isSome = true := by
    obtain ⟨fields, kind, rfl, tagged, -⟩ := readExpr_eq_ok.mp read
    exact ⟨fields, rfl, by rw [tagged, Option.bind_some, exprKind?_eq_some.mpr rfl]; rfl⟩
  have stmtTag {s : Stmt} (read : readStmt origin d = .ok s)
      : ∃ fields, d = .object fields ∧ ((fields.lookup "kind").bind exprKind?).isSome = false := by
    obtain ⟨fields, kind, rfl, tagged, -⟩ := readStmt_eq_ok.mp read
    have noExpr : exprKind? (.text kind.tag) = none := by cases kind <;> decide
    exact ⟨fields, rfl, by rw [tagged, Option.bind_some, noExpr]; rfl⟩
  constructor
  · intro read
    have either : readNode origin d = (readExpr origin d).map .expr
        ∨ readNode origin d = (readStmt origin d).map .stmt := ite_eq_or_eq _ _ _
    rcases either with asExpr | asStmt
    · obtain ⟨e, readIt, rfl⟩ := map_eq_ok.mp (asExpr.symm.trans read)
      exact readIt
    · obtain ⟨s, readIt, rfl⟩ := map_eq_ok.mp (asStmt.symm.trans read)
      exact readIt
  · cases node with
    | expr e =>
        intro read
        obtain ⟨fields, rfl, isExpr⟩ := exprTag read
        simp only [readNode, isExpr, if_true, read]
        rfl
    | stmt s =>
        intro read
        obtain ⟨fields, rfl, isExpr⟩ := stmtTag read
        simp only [readNode, isExpr, read]
        rfl

-----------------------------------------------------------------------------------------
-- What is read is what the datum denotes
-----------------------------------------------------------------------------------------

/-- What is read from the fields of an expression is what the object denotes, by recursion into the
operands, which are smaller. -/
theorem denotesExpr_of_fields {fields : Fields} {kind : ExprKind} {e : Expr}
    (byteless : Datum.bytelessFields fields)
    (tagged : fields.lookup "kind" = some (.text kind.tag))
    (read : readExprFields .data kind fields = .ok e)
    : DenotesExpr (.object fields) e := by
  have child {name : String} {d : Datum} {e : Expr} (found : fields.lookup name = some d)
      (read : readExpr .data d = .ok e) : DenotesExpr d e := by
    obtain ⟨inner, kind, rfl, tagged, read⟩ := readExpr_eq_ok.mp read
    have smaller := sizeOf_lookup_lt found
    have byteless := byteless_of_lookup byteless found
    rw [Datum.byteless] at byteless
    exact denotesExpr_of_fields byteless tagged read
  cases kind with
  | boolean =>
      simp only [readExprFields, map_eq_ok, required_eq_ok, find?_one, readBoolean_eq_ok] at read
      obtain ⟨b, ⟨d, value, rfl⟩, rfl⟩ := read
      exact .boolean tagged value
  | number =>
      simp only [readExprFields, map_eq_ok, required_eq_ok, find?_one, readNumber_eq_ok] at read
      obtain ⟨x, ⟨d, value, rfl | ⟨n, rank, rfl, nearest, rfl⟩⟩, rfl⟩ := read
      · exact .double tagged value
      · exact .int tagged value nearest
  | var =>
      simp only [readExprFields, map_eq_ok, required_eq_ok, find?_one] at read
      obtain ⟨name, ⟨d, value, read⟩, rfl⟩ := read
      obtain rfl := (readText_eq_ok (byteless_of_lookup byteless value)).mp read
      exact .var tagged value
  | operator =>
      simp only [readExprFields, map_eq_ok, both_eq_ok, required_eq_ok, find?_one] at read
      obtain ⟨⟨op, left, right⟩, ⟨⟨d, symbol, readOp⟩, ⟨l, hasLeft, readLeft⟩, r, hasRight, readRight⟩,
        rfl⟩ := read
      obtain rfl := (readOperator_eq_ok (byteless_of_lookup byteless symbol)).mp readOp
      exact .binary tagged symbol hasLeft (child hasLeft readLeft) hasRight (child hasRight readRight)
termination_by sizeOf fields
decreasing_by
  simp only [Datum.object.sizeOf_spec] at smaller
  omega

theorem denotesExpr_of_read {d : Datum} {e : Expr} (byteless : d.byteless)
    (read : readExpr .data d = .ok e)
    : DenotesExpr d e := by
  obtain ⟨fields, kind, rfl, tagged, readFields⟩ := readExpr_eq_ok.mp read
  rw [Datum.byteless] at byteless
  exact denotesExpr_of_fields byteless tagged readFields

mutual

/-- What is read from the fields of a statement is what the object denotes. Its blocks are smaller,
and their items are read one by one. -/
theorem denotesStmt_of_fields {fields : Fields} {kind : StmtKind} {s : Stmt}
    (byteless : Datum.bytelessFields fields)
    (tagged : fields.lookup "kind" = some (.text kind.tag))
    (read : readStmtFields .data kind fields = .ok s)
    : DenotesStmt (.object fields) s := by
  have text {name s : String} {d : Datum} (found : fields.lookup name = some d)
      (read : readText d = .ok s) : fields.lookup name = some (.text s) := by
    rw [← (readText_eq_ok (byteless_of_lookup byteless found)).mp read, found]
  have expr {name : String} {d : Datum} {e : Expr} (found : fields.lookup name = some d)
      (read : readExpr .data d = .ok e) : DenotesExpr d e :=
    denotesExpr_of_read (byteless_of_lookup byteless found) read
  have block {d : Datum} {stmts : List Stmt} (plain : d.byteless) (smaller : sizeOf d < sizeOf fields)
      (read : readStmts .data d = .ok stmts) : DenotesBlock d stmts := by
    cases d with
    | list items =>
        rw [Datum.byteless] at plain
        rw [readStmts] at read
        exact .list (denotesItems_of_read plain read)
    | tuple items =>
        rw [Datum.byteless] at plain
        rw [readStmts] at read
        exact .tuple (denotesItems_of_read plain read)
    | _ => simp [readStmts, Checked.issue] at read
  cases kind with
  | declare =>
      simp only [readStmtFields, map_eq_ok, both_eq_ok, required_eq_ok, find?_one] at read
      obtain ⟨⟨name, value⟩, ⟨⟨n, named, readName⟩, d, hasValue, readValue⟩, rfl⟩ := read
      exact .declare tagged (text named readName) hasValue (expr hasValue readValue)
  | assign =>
      simp only [readStmtFields, map_eq_ok, both_eq_ok, required_eq_ok, find?_one] at read
      obtain ⟨⟨name, value⟩, ⟨⟨n, named, readName⟩, d, hasValue, readValue⟩, rfl⟩ := read
      exact .assign tagged (text named readName) hasValue (expr hasValue readValue)
  | branch =>
      simp only [readStmtFields, map_eq_ok, both_eq_ok, required_eq_ok, optional_eq_ok, find?_one,
        find?_two, find?_two_eq_none] at read
      obtain ⟨⟨test, whenTrue, whenFalse⟩, ⟨⟨d, hasTest, readTest⟩, ⟨t, hasTrue, readTrue⟩,
        ⟨f, hasFalse, readFalse⟩ | ⟨noFalse, rfl⟩⟩, rfl⟩ := read
      · exact .branch tagged hasTest (expr hasTest readTest)
          hasTrue (block (byteless_of_spells byteless hasTrue) (sizeOf_spells_lt hasTrue) readTrue)
          hasFalse (block (byteless_of_spells byteless hasFalse) (sizeOf_spells_lt hasFalse) readFalse)
      · exact .branchWithout tagged hasTest (expr hasTest readTest)
          hasTrue (block (byteless_of_spells byteless hasTrue) (sizeOf_spells_lt hasTrue) readTrue)
          noFalse
  | loop =>
      simp only [readStmtFields, map_eq_ok, both_eq_ok, required_eq_ok, find?_one] at read
      obtain ⟨⟨test, body⟩, ⟨⟨d, hasTest, readTest⟩, b, hasBody, readBody⟩, rfl⟩ := read
      exact .loop tagged hasTest (expr hasTest readTest)
        hasBody (block (byteless_of_lookup byteless hasBody) (sizeOf_lookup_lt hasBody) readBody)
  | print =>
      simp only [readStmtFields, map_eq_ok, required_eq_ok, find?_one] at read
      obtain ⟨value, ⟨d, hasValue, readValue⟩, rfl⟩ := read
      exact .print tagged hasValue (expr hasValue readValue)
termination_by sizeOf fields
decreasing_by
  all_goals
    simp only [Datum.list.sizeOf_spec, Datum.tuple.sizeOf_spec] at smaller
    omega

/-- What is read from items is what they denote, one by one. -/
theorem denotesItems_of_read {index : Nat} {items : List Datum} {stmts : List Stmt}
    (byteless : Datum.bytelessItems items) (read : readItems .data index items = .ok stmts)
    : DenotesItems items stmts := by
  cases items with
  | nil =>
      rw [readItems] at read
      cases read
      exact .nil
  | cons item rest =>
      rw [Datum.bytelessItems, Bool.and_eq_true] at byteless
      simp only [readItems, map_eq_ok, both_eq_ok, under_eq_ok] at read
      obtain ⟨⟨stmt, stmts⟩, ⟨readItem, readRest⟩, rfl⟩ := read
      obtain ⟨fields, kind, rfl, tagged, readFields⟩ := readStmt_eq_ok.mp readItem
      rw [Datum.byteless] at byteless
      exact .cons (denotesStmt_of_fields byteless.1 tagged readFields)
        (denotesItems_of_read byteless.2 readRest)
termination_by sizeOf items

end

theorem denotesBlock_of_read {d : Datum} {stmts : List Stmt} (byteless : d.byteless)
    (read : readStmts .data d = .ok stmts)
    : DenotesBlock d stmts := by
  cases d with
  | list items =>
      rw [Datum.byteless] at byteless
      rw [readStmts] at read
      exact .list (denotesItems_of_read byteless read)
  | tuple items =>
      rw [Datum.byteless] at byteless
      rw [readStmts] at read
      exact .tuple (denotesItems_of_read byteless read)
  | _ => simp [readStmts, Checked.issue] at read

-----------------------------------------------------------------------------------------
-- What a datum denotes is read
-----------------------------------------------------------------------------------------

/-- What a datum denotes is read from it, by induction over the denotation. -/
theorem readExpr_of_denotes {d : Datum} {e : Expr} (denotes : DenotesExpr d e)
    : readExpr .data d = .ok e := by
  induction denotes with
  | boolean kind value =>
      refine readExpr_eq_ok.mpr ⟨_, .boolean, rfl, kind, ?_⟩
      simp only [readExprFields, map_eq_ok, required_eq_ok, find?_one]
      exact ⟨_, ⟨_, value, rfl⟩, rfl⟩
  | double kind value =>
      refine readExpr_eq_ok.mpr ⟨_, .number, rfl, kind, ?_⟩
      simp only [readExprFields, map_eq_ok, required_eq_ok, find?_one]
      exact ⟨_, ⟨_, value, rfl⟩, rfl⟩
  | int kind value nearest =>
      refine readExpr_eq_ok.mpr ⟨_, .number, rfl, kind, ?_⟩
      simp only [readExprFields, map_eq_ok, required_eq_ok, find?_one]
      exact ⟨_, ⟨_, value, readNumber_eq_ok.mpr (Or.inr ⟨_, _, rfl, nearest, rfl⟩)⟩, rfl⟩
  | var kind named =>
      refine readExpr_eq_ok.mpr ⟨_, .var, rfl, kind, ?_⟩
      simp only [readExprFields, map_eq_ok, required_eq_ok, find?_one]
      exact ⟨_, ⟨_, named, rfl⟩, rfl⟩
  | binary kind symbol hasLeft _ hasRight _ readLeft readRight =>
      refine readExpr_eq_ok.mpr ⟨_, .operator, rfl, kind, ?_⟩
      simp only [readExprFields, map_eq_ok, both_eq_ok, required_eq_ok, find?_one]
      exact ⟨(_, _, _), ⟨⟨_, symbol, (readOperator_eq_ok rfl).mpr rfl⟩, ⟨_, hasLeft, readLeft⟩,
        _, hasRight, readRight⟩, rfl⟩

mutual

/-- A statement that a datum denotes is read from it, together with the blocks inside. -/
theorem readStmt_of_denotes {d : Datum} {s : Stmt} : DenotesStmt d s → readStmt .data d = .ok s
  | .declare kind named hasValue denotesValue => by
      refine readStmt_eq_ok.mpr ⟨_, .declare, rfl, kind, ?_⟩
      simp only [readStmtFields, map_eq_ok, both_eq_ok, required_eq_ok, find?_one]
      exact ⟨(_, _), ⟨⟨_, named, rfl⟩, _, hasValue, readExpr_of_denotes denotesValue⟩, rfl⟩
  | .assign kind named hasValue denotesValue => by
      refine readStmt_eq_ok.mpr ⟨_, .assign, rfl, kind, ?_⟩
      simp only [readStmtFields, map_eq_ok, both_eq_ok, required_eq_ok, find?_one]
      exact ⟨(_, _), ⟨⟨_, named, rfl⟩, _, hasValue, readExpr_of_denotes denotesValue⟩, rfl⟩
  | .branch kind hasTest denotesTest hasTrue denotesTrue hasFalse denotesFalse => by
      have readTest := readExpr_of_denotes denotesTest
      have readTrue := readStmts_of_denotes denotesTrue
      have readFalse := readStmts_of_denotes denotesFalse
      refine readStmt_eq_ok.mpr ⟨_, .branch, rfl, kind, ?_⟩
      simp only [readStmtFields, map_eq_ok, both_eq_ok, required_eq_ok, optional_eq_ok, find?_one,
        find?_two]
      exact ⟨(_, _, _), ⟨⟨_, hasTest, readTest⟩, ⟨_, hasTrue, readTrue⟩,
        Or.inl ⟨_, hasFalse, readFalse⟩⟩, rfl⟩
  | .branchWithout kind hasTest denotesTest hasTrue denotesTrue noFalse => by
      have readTest := readExpr_of_denotes denotesTest
      have readTrue := readStmts_of_denotes denotesTrue
      refine readStmt_eq_ok.mpr ⟨_, .branch, rfl, kind, ?_⟩
      simp only [readStmtFields, map_eq_ok, both_eq_ok, required_eq_ok, optional_eq_ok, find?_one,
        find?_two, find?_two_eq_none]
      exact ⟨(_, _, _), ⟨⟨_, hasTest, readTest⟩, ⟨_, hasTrue, readTrue⟩, Or.inr ⟨noFalse, rfl⟩⟩, rfl⟩
  | .loop kind hasTest denotesTest hasBody denotesBody => by
      have readTest := readExpr_of_denotes denotesTest
      have readBody := readStmts_of_denotes denotesBody
      refine readStmt_eq_ok.mpr ⟨_, .loop, rfl, kind, ?_⟩
      simp only [readStmtFields, map_eq_ok, both_eq_ok, required_eq_ok, find?_one]
      exact ⟨(_, _), ⟨⟨_, hasTest, readTest⟩, _, hasBody, readBody⟩, rfl⟩
  | .print kind hasValue denotesValue => by
      refine readStmt_eq_ok.mpr ⟨_, .print, rfl, kind, ?_⟩
      simp only [readStmtFields, map_eq_ok, required_eq_ok, find?_one]
      exact ⟨_, ⟨_, hasValue, readExpr_of_denotes denotesValue⟩, rfl⟩

theorem readStmts_of_denotes {d : Datum} {stmts : List Stmt}
    : DenotesBlock d stmts → readStmts .data d = .ok stmts
  | .list denotes => by
      rw [readStmts]
      exact readItems_of_denotes 0 denotes
  | .tuple denotes => by
      rw [readStmts]
      exact readItems_of_denotes 0 denotes

theorem readItems_of_denotes {items : List Datum} {stmts : List Stmt} (index : Nat)
    : DenotesItems items stmts → readItems .data index items = .ok stmts
  | .nil => by rw [readItems]
  | .cons head tail => by
      simp only [readItems, map_eq_ok, both_eq_ok, under_eq_ok]
      exact ⟨(_, _), ⟨readStmt_of_denotes head, readItems_of_denotes (index + 1) tail⟩, rfl⟩

end

-----------------------------------------------------------------------------------------
-- A failed reading reports something
-----------------------------------------------------------------------------------------

/-- A reading that fails does so with at least one issue. -/
def Reports {α : Type} (checked : Checked α) : Prop :=
  checked ≠ .error []

namespace Reports

variable {α β : Type}

/-- An issue is a report. -/
theorem issue (problem : Problem)
    : Reports (Checked.issue problem : Checked α) := by
  simp [Reports, Checked.issue]

theorem ok (a : α)
    : Reports (.ok a : Checked α) := by
  simp [Reports]

/-- A segment in front takes no issue away. -/
theorem under {checked : Checked α} (reports : Reports checked) (segment : Segment)
    : Reports (checked.under segment) := by
  cases checked with
  | ok a => nofun
  | error issues =>
      cases issues with
      | nil => exact absurd rfl reports
      | cons first others => nofun

theorem map {checked : Checked α} (reports : Reports checked) (f : α → β)
    : Reports (checked.map f) := by
  cases checked <;> simp_all [Reports, Except.map]

/-- Two readings that report do so together. -/
theorem both {first : Checked α} {second : Checked β} (left : Reports first) (right : Reports second)
    : Reports (first.both second) := by
  cases first <;> cases second <;> simp_all [Reports, Checked.both]

end Reports

section
variable {origin : Origin}

/-- Items report if each of them does, by induction over the items. -/
theorem readItems_reports {items : List Datum}
    (reports : ∀ item ∈ items, Reports (readStmt origin item)) (index : Nat)
    : Reports (readItems origin index items) := by
  induction items generalizing index with
  | nil =>
      rw [readItems]
      exact .ok []
  | cons item rest ih =>
      obtain ⟨first, others⟩ := List.forall_mem_cons.mp reports
      rw [readItems]
      exact ((first.under _).both (ih others (index + 1))).map _

/-- A field reports what its datum does, or that it is missing. -/
theorem Field.read_reports {fields : Fields} {field : Field}
    (reports : ∀ name datum, fields.find? field.spellings = some (name, datum)
      → Reports (readAs origin field.role datum))
    : Reports (field.read origin fields) := by
  unfold Field.read
  split
  next name datum found => exact (reports name datum found).under _
  next =>
    split
    · exact .ok _
    · exact (Reports.issue .fieldMissing).under _

/-- A row of fields reports if each of them does. -/
theorem readRow_reports {fields : Fields} {row : List Field}
    (reports : ∀ field ∈ row, ∀ name datum, fields.find? field.spellings = some (name, datum)
      → Reports (readAs origin field.role datum))
    : Reports (readRow origin fields row) := by
  induction row with
  | nil => exact .ok ()
  | cons field rest ih =>
      obtain ⟨first, others⟩ := List.forall_mem_cons.mp reports
      cases rest with
      | nil => exact Field.read_reports first
      | cons next rest => exact (Field.read_reports first).both (ih others)

end

/-- Whatever a datum is read as, a reading that fails says why. -/
theorem readAs_reports (origin : Origin) (role : Role) (d : Datum)
    : Reports (readAs origin role d) := by
  induction role, d using reading_induction with
  | flat role d noNode noItems =>
      rcases readAs_flat origin noNode noItems with ⟨tree, read⟩ | ⟨problem, -, read⟩
      · rw [read]
        exact .ok tree
      · rw [read]
        exact .issue problem
  | block d items block ih =>
      rw [readAs_items block]
      exact readItems_reports ih 0
  | node kind d fields node ih =>
      rw [readAs_node node]
      exact ((readRow_reports ih).map _).under _

-----------------------------------------------------------------------------------------
-- Programs
-----------------------------------------------------------------------------------------

/-- A program is loaded exactly if its statements are read. -/
theorem ofNodes_eq_ok {nodes : Datum} {p : Program}
    : Program.ofNodes nodes = .ok p ↔ readStmts .data nodes = .ok p.statements := by
  rw [Program.ofNodes_eq, map_eq_ok]
  constructor
  · rintro ⟨stmts, read, rfl⟩
    exact read
  · intro read
    exact ⟨_, read, rfl⟩

end Document

open Document

/-- A datum without bytes is loaded exactly if it denotes a list of statements, as the program of
the statements it denotes, which are the only ones; otherwise at least one issue is reported. -/
theorem Program.ofNodes_accepts_denoting {nodes : Datum} (byteless : nodes.byteless)
    : (∀ p, Program.ofNodes nodes = .ok p ↔ DenotesBlock nodes p.statements)
      ∧ (∀ stmts others, DenotesBlock nodes stmts → DenotesBlock nodes others → stmts = others)
      ∧ ((∀ stmts, ¬ DenotesBlock nodes stmts)
        → ∃ first others, Program.ofNodes nodes = .error (first :: others)) := by
  have accepts (p : Program)
      : Program.ofNodes nodes = .ok p ↔ DenotesBlock nodes p.statements :=
    ofNodes_eq_ok.trans ⟨denotesBlock_of_read byteless, readStmts_of_denotes⟩
  refine ⟨accepts, ?_, ?_⟩
  · intro stmts others denotes also
    have same := (readStmts_of_denotes denotes).symm.trans (readStmts_of_denotes also)
    exact Except.ok.inj same
  · intro nothing
    have reports := (readAs_reports .data .block nodes).map Program.mk
    change Reports ((readStmts .data nodes).map Program.mk) at reports
    rw [← Program.ofNodes_eq] at reports
    cases loaded : Program.ofNodes nodes with
    | ok p => exact absurd ((accepts p).mp loaded) (nothing p.statements)
    | error issues =>
        cases issues with
        | nil => exact absurd loaded reports
        | cons first others => exact ⟨first, others, rfl⟩

/-- A branch under the second spelling of its part, with a field that nothing asks for. -/
def Datum.branchOnTwo (value : Datum) : Datum :=
  .tuple [.object
    [("kind", .text "if"),
      ("test", .object [("kind", .text "boolean"), ("value", .boolean true)]),
      ("comment", .null),
      ("truePart", .list [.object
        [("kind", .text "print"),
          ("expression", .object [("kind", .text "number"), ("value", value)])]])]]

/-- The second spelling counts where the first is absent, an unknown field is passed over, and a
boolean is no number. -/
theorem Program.ofNodes_accepts_denoting_branchOnTwo
    : ((Datum.branchOnTwo (.number (.int 2))).byteless
        ∧ Program.ofNodes (Datum.branchOnTwo (.number (.int 2)))
          = .ok ⟨[.branch (.boolean true) [.print (.number (Binary64.ofInt 2))] []]⟩)
      ∧ (Datum.branchOnTwo (.boolean true)).byteless
        ∧ ∃ first others,
            Program.ofNodes (Datum.branchOnTwo (.boolean true)) = .error (first :: others) := by
  have plain : (Datum.branchOnTwo (.number (.int 2))).byteless := by decide
  have plain' : (Datum.branchOnTwo (.boolean true)).byteless := by decide
  refine ⟨⟨plain, ?_⟩, plain', ?_⟩
  · have rank : Binary64.ofInt 2 = .finite (decide ((2 : Int) < 0)) ⟨1024 * binade, by decide⟩ := by
      decide +kernel
    have nearest := (ofInt_eq_finite.mp rank).1
    rw [((Program.ofNodes_accepts_denoting plain).1 _).mpr]
    rw [rank]
    exact .tuple (.cons
      (.branchWithout rfl rfl (.boolean rfl rfl) (Or.inr ⟨rfl, rfl⟩)
        (.list (.cons (.print rfl rfl (.int rfl rfl nearest)) .nil)) ⟨rfl, rfl⟩)
      .nil)
  · apply (Program.ofNodes_accepts_denoting plain').2.2
    intro stmts denotes
    have refused : (readStmts .data (Datum.branchOnTwo (.boolean true))).isOk = false := by
      decide +kernel
    rw [readStmts_of_denotes denotes] at refused
    cases refused

end ScopedWhile
