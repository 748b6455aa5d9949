import ScopedWhile.Number.Basic

/-!
Plain data and run-time values. A datum is anything that can be bound to a name or handed to the
reader of programs; a value is one of the data that expressions compute with.
-/

namespace ScopedWhile

/-- A scope of a store is named by its place in it. -/
abbrev ScopeId := Nat

inductive Datum where
  | null
  | boolean (b : Bool)
  | number (n : Number)
  | text (s : String)
  | bytes (content : List UInt8)
  | list (items : List Datum)
  | tuple (items : List Datum)
  | object (fields : List (String × Datum))
  | scope (id : ScopeId)

inductive Value where
  | boolean (b : Bool)
  | number (n : Number)
deriving DecidableEq

namespace Datum

/-- The run-time value that a datum is, if it is one. -/
def toValue? : Datum → Option Value
  | .boolean b => some (.boolean b)
  | .number n => some (.number n)
  | _ => none

def isBoolean : Datum → Bool
  | .boolean _ => true
  | _ => false

def isNumber : Datum → Bool
  | .number _ => true
  | _ => false

/-- The word for the type of a datum in messages. -/
def typeName : Datum → String
  | .null => "NoneType"
  | .boolean _ => "bool"
  | .number (.int _) => "int"
  | .number (.double _) => "float"
  | .text _ => "str"
  | .bytes _ => "bytes"
  | .list _ => "list"
  | .tuple _ => "tuple"
  | .object _ => "dict"
  | .scope _ => "State"

end Datum

namespace Value

def toDatum : Value → Datum
  | .boolean b => .boolean b
  | .number n => .number n

@[simp]
theorem toValue?_toDatum (v : Value)
    : v.toDatum.toValue? = some v := by
  cases v <;> rfl

/-- The text of a value in programs and output. -/
def display : Value → String
  | .boolean b => if b then "true" else "false"
  | .number n => n.display

end Value

theorem Datum.toDatum_of_toValue? {datum : Datum} {v : Value} (value : datum.toValue? = some v)
    : v.toDatum = datum := by
  cases datum <;> cases value <;> rfl

end ScopedWhile
