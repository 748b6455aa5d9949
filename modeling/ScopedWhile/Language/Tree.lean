import ScopedWhile.Language.Operator
import ScopedWhile.Number.Basic

/-!
Programs as trees: expressions, statements and the kinds of both. Number literals are doubles, and
names are arbitrary texts.
-/

namespace ScopedWhile

inductive Expr where
  | boolean (value : Bool)
  | number (value : Binary64)
  | var (name : String)
  | binary (op : Operator) (left right : Expr)
deriving DecidableEq

inductive Stmt where
  | declare (name : String) (value : Expr)
  | assign (name : String) (value : Expr)
  | branch (test : Expr) (whenTrue whenFalse : List Stmt)
  | loop (test : Expr) (body : List Stmt)
  | print (value : Expr)

structure Program where
  statements : List Stmt

inductive ExprKind where
  | boolean
  | number
  | var
  | operator
deriving DecidableEq

inductive StmtKind where
  | declare
  | assign
  | branch
  | loop
  | print
deriving DecidableEq

namespace ExprKind

def all : List ExprKind :=
  [.boolean, .number, .var, .operator]

/-- The tag that marks an expression of this kind in data. -/
def tag : ExprKind → String
  | .boolean => "boolean"
  | .number => "number"
  | .var => "variable"
  | .operator => "operator"

def ofTag? (tag : String) : Option ExprKind :=
  all.find? fun kind => kind.tag = tag

end ExprKind

namespace StmtKind

def all : List StmtKind :=
  [.declare, .assign, .branch, .loop, .print]

/-- The tag that marks a statement of this kind in data. -/
def tag : StmtKind → String
  | .declare => "let"
  | .assign => "assignment"
  | .branch => "if"
  | .loop => "while"
  | .print => "print"

def ofTag? (tag : String) : Option StmtKind :=
  all.find? fun kind => kind.tag = tag

end StmtKind

def Expr.kind : Expr → ExprKind
  | .boolean _ => .boolean
  | .number _ => .number
  | .var _ => .var
  | .binary _ _ _ => .operator

def Stmt.kind : Stmt → StmtKind
  | .declare _ _ => .declare
  | .assign _ _ => .assign
  | .branch _ _ _ => .branch
  | .loop _ _ => .loop
  | .print _ => .print

/-- An expression or a statement, where either may stand. -/
inductive Node where
  | expr (e : Expr)
  | stmt (s : Stmt)

def Node.tag : Node → String
  | .expr e => e.kind.tag
  | .stmt s => s.kind.tag

end ScopedWhile
