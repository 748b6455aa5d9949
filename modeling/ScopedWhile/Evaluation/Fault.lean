import ScopedWhile.Datum.Basic

/-! What can go wrong in evaluating and executing, and how each cause is worded. -/

namespace ScopedWhile

/-- What an operator asks of its two operands. -/
inductive Requirement where
  | numbers
  | booleans
  | comparable
deriving DecidableEq

def Requirement.name : Requirement → String
  | .numbers => "numbers"
  | .booleans => "booleans"
  | .comparable => "comparable"

inductive Fault where
  /-- No level of the chain gives the name a run-time value. -/
  | undefinedVariable (name : String)
  | operandType (operator : String) (requirement : Requirement)
  | divisionByZero
  | duplicateDeclaration (name : String)
  /-- The current level does not bind the assigned name. -/
  | undeclaredAssignment (name : String)
  /-- The test of an `if` or `while` is a number. -/
  | nonBooleanTest (statement : String)
  | arithmetic (cause : ArithmeticError)
  /-- A datum that is not a run-time value has no display text. -/
  | unformattable (typeName : String)
  | unsupportedExpression (tag : String)
  | unsupportedStatement (tag : String)
deriving DecidableEq

def ArithmeticError.message : ArithmeticError → String
  | .integerTooLarge => "int too large to convert to float"
  | .quotientTooLarge => "integer division result too large for a float"

def Fault.message : Fault → String
  | .undefinedVariable name => s!"Variable '{name}' is not defined in the state."
  | .operandType _ .numbers => "Both operands should be numbers for binary operations"
  | .operandType _ .booleans =>
      "Both operands should be true or false for boolean operations"
  | .operandType _ .comparable =>
      "Both operands should be numbers or booleans for '===' operation"
  | .divisionByZero => "Division by zero is not allowed"
  | .duplicateDeclaration name => s!"Variable {name} already exists."
  | .undeclaredAssignment name => s!"Variable {name} does not exist."
  | .nonBooleanTest statement => s!"Test expression in '{statement}' statement must be boolean."
  | .arithmetic cause => cause.message
  | .unformattable typeName => s!"Cannot format non-runtime value of type {typeName}"
  | .unsupportedExpression tag => s!"Unsupported expression kind: {tag}"
  | .unsupportedStatement tag => s!"Unsupported statement kind: {tag}"

/-- The display text of a datum, which only run-time values have. -/
def Datum.display (d : Datum) : Except Fault String :=
  match d.toValue? with
  | some v => .ok v.display
  | none => .error (.unformattable d.typeName)

end ScopedWhile
