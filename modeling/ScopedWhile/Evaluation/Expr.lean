import ScopedWhile.Evaluation.Operator
import ScopedWhile.Language.Tree
import ScopedWhile.Scope.Chain

/-!
Evaluation of expressions: strict and from left to right. Both operands of every operator are
evaluated, those of the logical ones too.
-/

namespace ScopedWhile

/-- The value of a name, which must have one. -/
def Chain.lookup (chain : Chain) (name : String) : Except Fault Value :=
  match chain.lookup? name with
  | some v => .ok v
  | none => .error (.undefinedVariable name)

/-- The value of an expression when a reference to a name gives what `lookup` says. -/
def Expr.eval (lookup : String → Except Fault Value) : Expr → Except Fault Value
  | .boolean b => .ok (.boolean b)
  | .number x => .ok (.number (.double x))
  | .var name => lookup name
  | .binary op left right =>
      match left.eval lookup with
      | .error fault => .error fault
      | .ok a => match right.eval lookup with
        | .error fault => .error fault
        | .ok b => op.apply a b

def Chain.evaluate (chain : Chain) (e : Expr) : Except Fault Value :=
  e.eval chain.lookup

/-- Only expressions can be evaluated. -/
def Chain.evaluateNode (chain : Chain) : Node → Except Fault Value
  | .expr e => chain.evaluate e
  | .stmt s => .error (.unsupportedExpression s.kind.tag)

namespace Chain

section

variable {chain : Chain} {name : String} {v : Value} {fault : Fault}

/-- A reference gives the value that its name stands for. -/
theorem lookup_eq_ok_iff
    : chain.lookup name = .ok v ↔ chain.lookup? name = some v := by
  rw [lookup]
  cases chain.lookup? name <;> simp

/-- A reference fails only for a name without a value, and says which. -/
theorem lookup_eq_error_iff
    : chain.lookup name = .error fault
      ↔ chain.lookup? name = none ∧ fault = .undefinedVariable name := by
  rw [lookup]
  cases chain.lookup? name <;> simp [eq_comm]

end

theorem lookup_congr {chain other : Chain}
    (same : ∀ name, chain.lookup? name = other.lookup? name)
    : chain.lookup = other.lookup :=
  funext fun name => by rw [lookup, lookup, same]

/-- A child of a chain evaluates every expression as the chain does. -/
theorem evaluate_child (chain : Chain) (e : Expr)
    : chain.child.evaluate e = chain.evaluate e := by
  rw [evaluate, evaluate, lookup_congr chain.lookup?_child]

variable {chain : Chain} {op : Operator} {left right : Expr} {a b : Value} {fault : Fault}

/-- A failing left operand is the end of an operation. -/
theorem evaluate_left_fails (fails : chain.evaluate left = .error fault)
    : chain.evaluate (.binary op left right) = .error fault := by
  simp only [evaluate] at fails ⊢
  simp only [Expr.eval, fails]

theorem evaluate_right_fails (gives : chain.evaluate left = .ok a)
    (fails : chain.evaluate right = .error fault)
    : chain.evaluate (.binary op left right) = .error fault := by
  simp only [evaluate] at gives fails ⊢
  simp only [Expr.eval, gives, fails]

theorem evaluate_operands (first : chain.evaluate left = .ok a)
    (second : chain.evaluate right = .ok b)
    : chain.evaluate (.binary op left right) = op.apply a b := by
  simp only [evaluate] at first second ⊢
  simp only [Expr.eval, first, second]

end Chain

end ScopedWhile
