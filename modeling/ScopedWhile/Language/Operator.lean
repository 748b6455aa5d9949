/-! The nine binary operators, their symbols, groups and binding strengths. -/

namespace ScopedWhile

inductive Operator where
  | add
  | sub
  | mul
  | div
  | greater
  | less
  | and
  | or
  | equal
deriving DecidableEq

/-- Operators of one group ask the same of their operands. -/
inductive OperatorGroup where
  | arithmetic
  | logical
  | equality
deriving DecidableEq

namespace Operator

def all : List Operator :=
  [.add, .sub, .mul, .div, .greater, .less, .and, .or, .equal]

def symbol : Operator → String
  | .add => "+"
  | .sub => "-"
  | .mul => "*"
  | .div => "/"
  | .greater => ">"
  | .less => "<"
  | .and => "&&"
  | .or => "||"
  | .equal => "==="

def ofSymbol? (symbol : String) : Option Operator :=
  all.find? fun op => op.symbol = symbol

def group : Operator → OperatorGroup
  | .add | .sub | .mul | .div | .greater | .less => .arithmetic
  | .and | .or => .logical
  | .equal => .equality

/-- How tightly an operator binds in source text; every operator associates to the left. -/
def precedence : Operator → Nat
  | .or => 1
  | .and => 2
  | .equal => 3
  | .greater | .less => 4
  | .add | .sub => 5
  | .mul | .div => 6

end Operator

end ScopedWhile
