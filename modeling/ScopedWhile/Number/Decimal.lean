import ScopedWhile.Number.Binary64

/-!
Decimals and the binary64 magnitudes they denote. A decimal reads as the nearest magnitude, and
`shortest` finds the decimal with the fewest digits that reads as a given one.
-/

namespace ScopedWhile

/-- The value `digits · 10^exponent`. -/
structure Decimal where
  digits : Nat
  exponent : Int
deriving DecidableEq

namespace Decimal
open Binary64

/-- The rank of the magnitude nearest to a decimal. Below 10^-339 that is zero and from 10^311 on
it is infinity, so a huge exponent costs no huge power. -/
def rank (d : Decimal) : Nat :=
  if d.digits = 0 ∨ d.exponent + d.digits.log2 < -340 then 0
  else if 310 < d.exponent then rankLimit
  else match d.exponent with
    | .ofNat e => nearestRank (d.digits * Nat.pow 10 e * unitsPerOne) 1
    | .negSucc e => nearestRank (d.digits * unitsPerOne) (Nat.pow 10 (e + 1))

def toBinary64 (d : Decimal) (negative : Bool) : Binary64 :=
  ofRank negative d.rank

/-- The digits of a natural number, the most significant first. -/
def digitsOf (n : Nat) : List Char :=
  Nat.toDigits 10 n

/-- The exponent of the leading digit of `num / den`: the `e` with
`10^e ≤ num / den < 10^(e + 1)`. -/
def leadingExponent (num den : Nat) : Int :=
  if den ≤ num then (digitsOf (num / den)).length - 1
  else -((digitsOf ((den - 1) / num)).length : Int)

/-- Of the two multiples of `10^exponent` around the magnitude of a rank, the nearer one that
reads as that rank. -/
def onGrid? (rank : Nat) (exponent : Int) : Option Decimal :=
  let scaled := match exponent with
    | .ofNat e => (magnitude rank, unitsPerOne * Nat.pow 10 e)
    | .negSucc e => (magnitude rank * Nat.pow 10 (e + 1), unitsPerOne)
  let below := scaled.1 / scaled.2
  let nearer := roundHalfEven scaled.1 scaled.2
  let farther := if nearer = below then below + 1 else below
  [nearer, farther].findSome? fun digits =>
    if Decimal.rank ⟨digits, exponent⟩ = rank then some ⟨digits, exponent⟩ else none

/-- The exact decimal expansion of a magnitude. -/
def exact (rank : Nat) : Decimal :=
  ⟨magnitude rank * Nat.pow 5 1074, -1074⟩

/-- The decimal with the fewest digits that reads as a given rank, and of those the nearest to
its magnitude. Seventeen digits always suffice. -/
def shortest (rank : Nat) : Decimal :=
  let lead := leadingExponent (magnitude rank) unitsPerOne
  ((List.range 17).findSome? fun (n : Nat) => onGrid? rank (lead - n)).getD (exact rank)

end Decimal

end ScopedWhile
