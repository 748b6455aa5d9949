import ScopedWhile.Document.Dump
import ScopedWhile.Document.Reader
import ScopedWhile.Json.Reader
import ScopedWhile.Json.Writer

/-! The ways in which a program is loaded: from data, from trees and from JSON text. -/

namespace ScopedWhile
open Document

namespace Document

/-- A node that was read before, as a statement: it must have the tag of one. -/
def acceptStmt (node : Node) : Checked Stmt :=
  match StmtKind.ofTag? node.tag, node with
  | some _, .stmt s => .ok s
  | _, _ => .issue .tagUnknown

/-- Nodes that were read before, as statements. All of them are looked at. -/
def acceptStmts (index : Nat) : List Node → Checked (List Stmt)
  | [] => .ok []
  | node :: rest =>
      (((acceptStmt node).under (.index index)).both (acceptStmts (index + 1) rest)).map
        fun (stmt, stmts) => stmt :: stmts

end Document

namespace Program

/-- A program of statements that were read, which are checked once more as its `statements` field. -/
def wrap (stmts : List Stmt) : Checked Program :=
  ((acceptStmts 0 (stmts.map .stmt)).under (.name "statements")).map Program.mk

/-- A program from a list of statement nodes. -/
def ofNodes (nodes : Datum) : Checked Program := do
  let stmts ← readStmts .data nodes
  wrap stmts

/-- A program from the value of its `statements` field. -/
def ofStatements (nodes : Datum) : Checked Program :=
  ((readStmts .data nodes).under (.name "statements")).map Program.mk

/-- A program from nodes that were read alone. -/
def ofTrees (nodes : List Node) : Checked Program := do
  let stmts ← acceptStmts 0 nodes
  wrap stmts

end Program

namespace Document

/-- The data of a JSON text, given as text or as its UTF-8 bytes. -/
def readJson (source : Datum) : Checked Datum :=
  let read : Option Datum → Checked Datum := fun
    | some datum => .ok datum
    | none => .issue .notJson
  match source with
  | .text s => read (Json.read? s)
  | .bytes content => read (Json.readBytes? content)
  | _ => .issue .jsonExpected

end Document

namespace Program

/-- A program from JSON text that holds a list of statement nodes. -/
def ofJson (source : Datum) : Checked Program := do
  let nodes ← readJson source
  let stmts ← readStmts .json nodes
  wrap stmts

def toJson (p : Program) : String :=
  Json.write p.toDatum

/-- A program written as JSON text and read back. -/
def reload (p : Program) : Checked Program := do
  let datum ← readJson (.text p.toJson)
  readProgram .json datum

end Program

-----------------------------------------------------------------------------------------
-- The second check changes nothing
-----------------------------------------------------------------------------------------

namespace Document

/-- A statement has the tag of one, so it is accepted as it is. -/
theorem acceptStmt_stmt (s : Stmt)
    : acceptStmt (.stmt s) = .ok s := by
  cases s <;> rfl

/-- Statements are all accepted, by induction over them. -/
theorem acceptStmts_stmts (index : Nat) (stmts : List Stmt)
    : acceptStmts index (stmts.map .stmt) = .ok stmts := by
  induction stmts generalizing index with
  | nil => rfl
  | cons stmt rest ih =>
      rw [List.map_cons, acceptStmts, acceptStmt_stmt, ih]
      rfl

end Document

namespace Program

/-- Statements that were read pass the second check unchanged. -/
theorem wrap_eq (stmts : List Stmt)
    : wrap stmts = .ok ⟨stmts⟩ := by
  rw [wrap, acceptStmts_stmts]
  rfl

/-- Loading from nodes is reading them, and no issue comes from the second check. -/
theorem ofNodes_eq (nodes : Datum)
    : ofNodes nodes = (readStmts .data nodes).map Program.mk := by
  rw [ofNodes]
  cases readStmts .data nodes with
  | error issues => rfl
  | ok stmts => exact wrap_eq stmts

/-- The statements of a program, given as trees, make up the program. -/
theorem ofTrees_stmts (p : Program)
    : ofTrees (p.statements.map .stmt) = .ok p := by
  rw [ofTrees, acceptStmts_stmts]
  exact wrap_eq p.statements

/-- Loading from a JSON text is reading its data. -/
theorem ofJson_of_parsed {source nodes : Datum} (parsed : readJson source = .ok nodes)
    : ofJson source = (readStmts .json nodes).map Program.mk := by
  rw [ofJson, parsed]
  change (readStmts .json nodes).bind wrap = _
  cases readStmts .json nodes with
  | error issues => rfl
  | ok stmts => exact wrap_eq stmts

end Program

/-- Nodes do not change: a new datum for any field is refused. -/
def Node.withField (_node : Node) (field : String) (_datum : Datum) : Checked Node :=
  (Checked.issue .immutable).under (.name field)

end ScopedWhile
