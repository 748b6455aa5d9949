import ScopedWhile.Number.Numeral

/-!
The numbers of the language: unbounded integers and doubles in one arithmetic. Integers stay exact
among themselves, a double on either side turns the result into a double, and comparisons are by
exact value whatever the mixture.
-/

namespace ScopedWhile

inductive Number where
  | int (n : Int)
  | double (x : Binary64)
deriving DecidableEq

/-- What keeps an arithmetic operation from having a result. -/
inductive ArithmeticError where
  /-- An integer beyond the range of doubles meets a double. -/
  | integerTooLarge
  /-- The quotient of two integers is beyond the range of doubles. -/
  | quotientTooLarge
deriving DecidableEq

/-- A place on the line of exact values, counted in units of 2^-1074 between the two infinities. -/
inductive Position where
  | bottom
  | inside (units : Int)
  | top
deriving DecidableEq

namespace Position

def lt : Position → Position → Bool
  | .bottom, .bottom => false
  | .bottom, _ => true
  | .inside a, .inside b => decide (a < b)
  | .inside _, .top => true
  | _, _ => false

end Position

namespace Number

/-- The place of a number on the line; a NaN has none. -/
def position? : Number → Option Position
  | .int n => some (.inside (n * unitsPerOne))
  | .double (.finite s r) => some (.inside (Binary64.signedUnits s r))
  | .double (.infinite s) => some (if s then .bottom else .top)
  | .double .nan => none

def less (a b : Number) : Bool :=
  match a.position?, b.position? with
  | some p, some q => p.lt q
  | _, _ => false

def same (a b : Number) : Bool :=
  match a.position?, b.position? with
  | some p, some q => p = q
  | _, _ => false

def isZero : Number → Bool
  | .int n => n = 0
  | .double x => x.isZero

/-- The nearest double, if it is in range; doubles are themselves. -/
def toBinary64 : Number → Except ArithmeticError Binary64
  | .double x => .ok x
  | .int n =>
      let x := Binary64.ofInt n
      if x.isInfinite then .error .integerTooLarge else .ok x

/-- Applies an operation to two integers exactly, or to the nearest doubles. -/
def combine (onInts : Int → Int → Int) (onDoubles : Binary64 → Binary64 → Binary64)
    : Number → Number → Except ArithmeticError Number
  | .int a, .int b => .ok (.int (onInts a b))
  | a, b => do
      let x ← a.toBinary64
      let y ← b.toBinary64
      return .double (onDoubles x y)

def add : Number → Number → Except ArithmeticError Number :=
  combine (· + ·) Binary64.add

def sub : Number → Number → Except ArithmeticError Number :=
  combine (· - ·) Binary64.sub

def mul : Number → Number → Except ArithmeticError Number :=
  combine (· * ·) Binary64.mul

/-- The quotient of two integers is the double nearest to their exact ratio. The divisor is not
zero; `isZero` tells. -/
def div : Number → Number → Except ArithmeticError Number
  | .int a, .int b =>
      let x := Binary64.ofRatio (decide (a < 0) ^^ decide (b < 0)) a.natAbs b.natAbs
      if x.isInfinite then .error .quotientTooLarge else .ok (.double x)
  | a, b => do
      let x ← a.toBinary64
      let y ← b.toBinary64
      return .double (x.div y)

/-- The text of a number in data: integers in full, doubles as `Binary64.text`. -/
def text : Number → String
  | .int n => toString n
  | .double x => x.text

/-- Integral doubles of this magnitude or more are displayed as doubles. -/
def plainLimit : Nat := Nat.pow 10 16

/-- The text of a number in programs and output: an integral double below the limit is displayed as
an integer, so that negative zero is `0`. -/
def display : Number → String
  | .int n => toString n
  | .double x => match x.toInt? with
    | some n => if n.natAbs < plainLimit then toString n else x.text
    | none => x.text

end Number

end ScopedWhile
