import ScopedWhile.Language.Tree

/-!
Equality of trees as the language sees it: number literals are compared by value, so that the two
zeros are the same literal and a NaN differs from every literal.
-/

namespace ScopedWhile

def Expr.same : Expr → Expr → Bool
  | .boolean a, .boolean b => a = b
  | .number a, .number b => Number.same (.double a) (.double b)
  | .var a, .var b => a = b
  | .binary op a b, .binary op' a' b' => op = op' && a.same a' && b.same b'
  | _, _ => false

mutual

def Stmt.same : Stmt → Stmt → Bool
  | .declare x e, .declare y f => x = y && e.same f
  | .assign x e, .assign y f => x = y && e.same f
  | .branch t a b, .branch t' a' b' => t.same t' && sameAll a a' && sameAll b b'
  | .loop t a, .loop t' a' => t.same t' && sameAll a a'
  | .print e, .print f => e.same f
  | _, _ => false

def Stmt.sameAll : List Stmt → List Stmt → Bool
  | [], [] => true
  | a :: as, b :: bs => a.same b && sameAll as bs
  | _, _ => false

end

def Program.same (p q : Program) : Bool :=
  Stmt.sameAll p.statements q.statements

def Node.same : Node → Node → Bool
  | .expr a, .expr b => a.same b
  | .stmt a, .stmt b => a.same b
  | _, _ => false

end ScopedWhile
