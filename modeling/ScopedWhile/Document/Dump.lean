import ScopedWhile.Datum.Basic
import ScopedWhile.Language.Tree

/-!
Writing programs as data: every node with its tag and all its fields, in the first spelling of each.
-/

namespace ScopedWhile

def Expr.toDatum : Expr → Datum
  | .boolean value => .object [("kind", .text "boolean"), ("value", .boolean value)]
  | .number value => .object [("kind", .text "number"), ("value", .number (.double value))]
  | .var name => .object [("kind", .text "variable"), ("name", .text name)]
  | .binary op left right =>
      .object
        [("kind", .text "operator"), ("operator", .text op.symbol),
         ("left", left.toDatum), ("right", right.toDatum)]

mutual

def Stmt.toDatum : Stmt → Datum
  | .declare name value =>
      .object [("kind", .text "let"), ("name", .text name), ("expression", value.toDatum)]
  | .assign name value =>
      .object [("kind", .text "assignment"), ("name", .text name), ("expression", value.toDatum)]
  | .branch test whenTrue whenFalse =>
      .object
        [("kind", .text "if"), ("test", test.toDatum),
         ("true_part", .list (Stmt.toData whenTrue)),
         ("false_part", .list (Stmt.toData whenFalse))]
  | .loop test body =>
      .object [("kind", .text "while"), ("test", test.toDatum), ("body", .list (Stmt.toData body))]
  | .print value => .object [("kind", .text "print"), ("expression", value.toDatum)]

def Stmt.toData : List Stmt → List Datum
  | [] => []
  | stmt :: rest => stmt.toDatum :: Stmt.toData rest

end

def Program.toDatum (p : Program) : Datum :=
  .object [("statements", .list (Stmt.toData p.statements))]

def Node.toDatum : Node → Datum
  | .expr e => e.toDatum
  | .stmt s => s.toDatum

end ScopedWhile
