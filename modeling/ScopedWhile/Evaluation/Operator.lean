import ScopedWhile.Evaluation.Fault
import ScopedWhile.Language.Operator
import ScopedWhile.Text.Quoted

/-!
Operators on run-time values. The kinds of both operands are checked before anything is computed,
and a divisor of zero is a fault of its own.
-/

namespace ScopedWhile.Operator

/-- What the operands of an operator must be. -/
def requirement (op : Operator) : Requirement :=
  match op.group with
  | .arithmetic => .numbers
  | .logical => .booleans
  | .equality => .comparable

/-- The fault of an operator whose operands are not what it requires. -/
def mismatch (op : Operator) : Fault :=
  .operandType op.symbol op.requirement

/-- The value of an arithmetic result. -/
def numeric (result : Except ArithmeticError Number) : Except Fault Value :=
  match result with
  | .ok n => .ok (.number n)
  | .error cause => .error (.arithmetic cause)

def applyNumbers (op : Operator) (a b : Number) : Except Fault Value :=
  match op with
  | .add => numeric (a.add b)
  | .sub => numeric (a.sub b)
  | .mul => numeric (a.mul b)
  | .div => if b.isZero then .error .divisionByZero else numeric (a.div b)
  | .greater => .ok (.boolean (b.less a))
  | .less => .ok (.boolean (a.less b))
  | .equal => .ok (.boolean (a.same b))
  | .and | .or => .error op.mismatch

def applyBooleans (op : Operator) (a b : Bool) : Except Fault Value :=
  match op with
  | .and => .ok (.boolean (a && b))
  | .or => .ok (.boolean (a || b))
  | .equal => .ok (.boolean (a = b))
  | _ => .error op.mismatch

def apply (op : Operator) : Value → Value → Except Fault Value
  | .number a, .number b => op.applyNumbers a b
  | .boolean a, .boolean b => op.applyBooleans a b
  | _, _ => .error op.mismatch

/-- An operand that is no run-time value satisfies no operator. -/
def applyData (op : Operator) (left right : Datum) : Except Fault Value :=
  match left.toValue?, right.toValue? with
  | some a, some b => op.apply a b
  | _, _ => .error op.mismatch

/-- Why an operator named by its symbol gives no value. -/
inductive ApplyError where
  | unknownSymbol (symbol : String)
  | fault (cause : Fault)
deriving DecidableEq

def ApplyError.message : ApplyError → String
  | .unknownSymbol symbol => Text.quote symbol ++ " is not a valid BinaryOp"
  | .fault cause => cause.message

/-- Applies the operator with a symbol; an unknown symbol is refused before the operands are looked
at. -/
def applySymbol (symbol : String) (left right : Datum) : Except ApplyError Value :=
  match ofSymbol? symbol with
  | none => .error (.unknownSymbol symbol)
  | some op => (op.applyData left right).mapError .fault

end ScopedWhile.Operator
