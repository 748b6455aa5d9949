import ScopedWhile.Datum.Basic
import ScopedWhile.Document.Issue
import ScopedWhile.Language.Tree

/-!
Reading programs from data. A node is an object whose `kind` field selects the kind of tree, and a
field may have more than one spelling, of which the first present one counts. All issues are
reported, field after field and item after item; fields that nothing asks for are ignored.
-/

namespace ScopedWhile.Document

abbrev Fields := List (String × Datum)

/-- The first of several spellings that names a field, with the field's datum. -/
def Fields.find? (fields : Fields) (names : List String) : Option (String × Datum) :=
  names.findSome? fun name => (fields.lookup name).map fun datum => (name, datum)

/-- What is found among fields is smaller than the fields, so that readers may go into it. -/
theorem sizeOf_lookup_lt {fields : Fields} {name : String} {datum : Datum}
    (found : fields.lookup name = some datum)
    : sizeOf datum < sizeOf fields := by
  induction fields with
  | nil => simp at found
  | cons field rest ih =>
      obtain ⟨key, item⟩ := field
      rw [List.lookup_cons] at found
      simp only [List.cons.sizeOf_spec, Prod.mk.sizeOf_spec]
      split at found
      · obtain rfl := Option.some.inj found
        omega
      · have := ih found
        omega

theorem Fields.sizeOf_find?_lt {fields : Fields} {names : List String} {name : String}
    {datum : Datum} (found : fields.find? names = some (name, datum))
    : sizeOf datum < sizeOf fields := by
  obtain ⟨spelling, -, present⟩ := List.exists_of_findSome?_eq_some found
  obtain ⟨item, held, same⟩ := Option.map_eq_some_iff.mp present
  obtain ⟨-, rfl⟩ := Prod.mk.inj same
  exact sizeOf_lookup_lt held

/-- Reads a field that must be there; a missing one is reported under its first spelling. -/
def required {α : Type} (fields : Fields) (names : List String)
    (read : (datum : Datum) → sizeOf datum < sizeOf fields → Checked α)
    : Checked α :=
  match found : fields.find? names with
  | some (name, datum) => (read datum (Fields.sizeOf_find?_lt found)).under (.name name)
  | none => (Checked.issue .fieldMissing).under (.name (names.headD ""))

/-- Reads a field that may be absent. -/
def optional {α : Type} (fields : Fields) (names : List String) (absent : α)
    (read : (datum : Datum) → sizeOf datum < sizeOf fields → Checked α)
    : Checked α :=
  match found : fields.find? names with
  | some (name, datum) => (read datum (Fields.sizeOf_find?_lt found)).under (.name name)
  | none => .ok absent

/-- A text, which may be given as its UTF-8 bytes. -/
def readText : Datum → Checked String
  | .text s => .ok s
  | .bytes content => match String.fromUTF8? ⟨content.toArray⟩ with
    | some s => .ok s
    | none => .issue .textUndecodable
  | _ => .issue .textExpected

def readBoolean : Datum → Checked Bool
  | .boolean b => .ok b
  | _ => .issue .booleanExpected

/-- A double, or an integer as the nearest double. An integer out of range is an infinity in JSON
text and an issue in plain data. -/
def readNumber (origin : Origin) : Datum → Checked Binary64
  | .number (.double x) => .ok x
  | .number (.int n) =>
      let x := Binary64.ofInt n
      if origin = .data ∧ x.isInfinite then .issue .numberExpected else .ok x
  | _ => .issue .numberExpected

def readOperator (datum : Datum) : Checked Operator :=
  match readText datum with
  | .ok symbol => match Operator.ofSymbol? symbol with
    | some op => .ok op
    | none => .issue .operatorExpected
  | .error _ => .issue .operatorExpected

def exprKind? : Datum → Option ExprKind
  | .text tag => ExprKind.ofTag? tag
  | _ => none

def stmtKind? : Datum → Option StmtKind
  | .text tag => StmtKind.ofTag? tag
  | _ => none

mutual

def readExpr (origin : Origin) : Datum → Checked Expr
  | .object fields => match fields.lookup "kind" with
    | none => .issue .tagMissing
    | some tag => match exprKind? tag with
      | none => .issue .tagUnknown
      | some kind => (readExprFields origin kind fields).under (.name kind.tag)
  | _ => .issue (.nodeExpected origin)

def readExprFields (origin : Origin) (kind : ExprKind) (fields : Fields) : Checked Expr :=
  match kind with
  | .boolean => (required fields ["value"] fun d _ => readBoolean d).map .boolean
  | .number => (required fields ["value"] fun d _ => readNumber origin d).map .number
  | .var => (required fields ["name"] fun d _ => readText d).map .var
  | .operator =>
      let op := required fields ["operator"] fun d _ => readOperator d
      let left := required fields ["left"] fun d _ => readExpr origin d
      let right := required fields ["right"] fun d _ => readExpr origin d
      (op.both (left.both right)).map fun (op, left, right) => .binary op left right

end

mutual

def readStmt (origin : Origin) : Datum → Checked Stmt
  | .object fields => match fields.lookup "kind" with
    | none => .issue .tagMissing
    | some tag => match stmtKind? tag with
      | none => .issue .tagUnknown
      | some kind => (readStmtFields origin kind fields).under (.name kind.tag)
  | _ => .issue (.nodeExpected origin)

def readStmtFields (origin : Origin) (kind : StmtKind) (fields : Fields) : Checked Stmt :=
  let name := required fields ["name"] fun d _ => readText d
  let expression := required fields ["expression"] fun d _ => readExpr origin d
  let test := required fields ["test"] fun d _ => readExpr origin d
  match kind with
  | .declare => (name.both expression).map fun (name, value) => .declare name value
  | .assign => (name.both expression).map fun (name, value) => .assign name value
  | .branch =>
      let whenTrue := required fields ["true_part", "truePart"] fun d _ => readStmts origin d
      let whenFalse := optional fields ["false_part", "falsePart"] [] fun d _ => readStmts origin d
      (test.both (whenTrue.both whenFalse)).map fun (test, whenTrue, whenFalse) =>
        .branch test whenTrue whenFalse
  | .loop =>
      let body := required fields ["body"] fun d _ => readStmts origin d
      (test.both body).map fun (test, body) => .loop test body
  | .print => expression.map .print

def readStmts (origin : Origin) : Datum → Checked (List Stmt)
  | .list items => readItems origin 0 items
  | .tuple items => readItems origin 0 items
  | _ => .issue .listExpected

/-- Reads the items of a list from the one with the given index on. -/
def readItems (origin : Origin) (index : Nat) : List Datum → Checked (List Stmt)
  | [] => .ok []
  | item :: rest =>
      (((readStmt origin item).under (.index index)).both
        (readItems origin (index + 1) rest)).map fun (stmt, stmts) => stmt :: stmts

end

/-- The tag of a node that is read as one given kind; it may be absent. -/
def checkTag (fields : Fields) (tag : String) : Checked Unit :=
  optional fields ["kind"] () fun d _ => match d with
    | .text s => if s = tag then .ok () else .issue .tagMismatch
    | _ => .issue .tagMismatch

/-- Reads an object as an expression of one given kind. -/
def readExprAs (origin : Origin) (kind : ExprKind) : Datum → Checked Expr
  | .object fields =>
      ((checkTag fields kind.tag).both (readExprFields origin kind fields)).map (·.2)
  | _ => .issue .recordExpected

/-- Reads an object as a statement of one given kind. -/
def readStmtAs (origin : Origin) (kind : StmtKind) : Datum → Checked Stmt
  | .object fields =>
      ((checkTag fields kind.tag).both (readStmtFields origin kind fields)).map (·.2)
  | _ => .issue .recordExpected

/-- Reads a program as an object with a list of statements, none by default. -/
def readProgram (origin : Origin) : Datum → Checked Program
  | .object fields =>
      (optional fields ["statements"] [] fun d _ => readStmts origin d).map Program.mk
  | _ => .issue .recordExpected

/-- Reads a node alone: an expression if its tag says so, and a statement otherwise. -/
def readNode (origin : Origin) (datum : Datum) : Checked Node :=
  let isExpr := match datum with
    | .object fields => ((fields.lookup "kind").bind exprKind?).isSome
    | _ => false
  if isExpr then (readExpr origin datum).map .expr else (readStmt origin datum).map .stmt

end ScopedWhile.Document
