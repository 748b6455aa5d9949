import ScopedWhile.Datum.Basic
import ScopedWhile.Language.Tree

/-!
The source text of expressions. An operation is put in parentheses exactly where its context binds
more tightly than its operator; a right operand asks for one more than the operator itself, since
all operators associate to the left.
-/

namespace ScopedWhile

def Expr.source (context : Nat) : Expr → String
  | .boolean b => (Value.boolean b).display
  | .number x => (Number.double x).display
  | .var name => name
  | .binary op left right =>
      let text :=
        left.source op.precedence ++ " " ++ op.symbol ++ " " ++ right.source (op.precedence + 1)
      if op.precedence < context then "(" ++ text ++ ")" else text

end ScopedWhile
