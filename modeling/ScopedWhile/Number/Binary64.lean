/-!
Binary64 numbers as ranks. The non-negative magnitudes of the format, listed upwards from zero,
are numbered by their rank, and each is a whole number of units of 2^-1074. Every operation
computes its exact result as a ratio of naturals and then takes the rank nearest to it.
-/

namespace ScopedWhile

/-- How many ranks a binade has, from one power of two up to the next. -/
abbrev binade : Nat := Nat.pow 2 52

/-- The rank one past the largest finite magnitude. -/
abbrev rankLimit : Nat := 2047 * binade

/-- How many units of 2^-1074 make one. -/
def unitsPerOne : Nat := Nat.pow 2 1074

inductive Binary64 where
  | finite (negative : Bool) (rank : Fin rankLimit)
  | infinite (negative : Bool)
  | nan
deriving DecidableEq

namespace Binary64

/-- The magnitude of a rank in units. The ranks of the first two binades are one unit apart, and
from there the distance doubles with every binade. -/
def magnitude (rank : Nat) : Nat :=
  if rank < binade then rank
  else (binade + rank % binade) * Nat.pow 2 (rank / binade - 1)

/-- The natural number nearest to `num / den`; a tie goes to the even neighbour. -/
def roundHalfEven (num den : Nat) : Nat :=
  let quotient := num / den
  let twice := 2 * (num % den)
  if twice < den ∨ twice = den ∧ quotient % 2 = 0 then quotient else quotient + 1

/-- The rank nearest to `num / den` units; a tie goes to the even rank. A rank of the next binade
is one past the last of this one, so rounding up needs no carry. -/
def nearestRank (num den : Nat) : Nat :=
  let shift := (num / den).log2 - 52
  shift * binade + roundHalfEven num (den * Nat.pow 2 shift)

/-- Ranks from the limit on stand for infinity. -/
def ofRank (negative : Bool) (rank : Nat) : Binary64 :=
  if h : rank < rankLimit then .finite negative ⟨rank, h⟩ else .infinite negative

def zero (negative : Bool) : Binary64 :=
  ofRank negative 0

/-- The double nearest to `num / den`. -/
def ofRatio (negative : Bool) (num den : Nat) : Binary64 :=
  ofRank negative (nearestRank (num * unitsPerOne) den)

def ofInt (n : Int) : Binary64 :=
  ofRatio (decide (n < 0)) n.natAbs 1

/-- The exact value of a finite double in units. -/
def signedUnits (negative : Bool) (rank : Nat) : Int :=
  if negative then -(magnitude rank : Int) else magnitude rank

/-- The double nearest to a signed count of units; `zeroSign` is the sign of an exact zero. -/
def ofUnits (zeroSign : Bool) (units : Int) : Binary64 :=
  ofRank (if units = 0 then zeroSign else decide (units < 0)) (nearestRank units.natAbs 1)

def neg : Binary64 → Binary64
  | .finite s r => .finite (!s) r
  | .infinite s => .infinite (!s)
  | .nan => .nan

/-- An exact zero is negative only if both operands are. -/
def add : Binary64 → Binary64 → Binary64
  | .nan, _ => .nan
  | _, .nan => .nan
  | .infinite s, .infinite t => if s = t then .infinite s else .nan
  | .infinite s, .finite _ _ => .infinite s
  | .finite _ _, .infinite t => .infinite t
  | .finite s a, .finite t b => ofUnits (s && t) (signedUnits s a + signedUnits t b)

def sub (x y : Binary64) : Binary64 :=
  x.add y.neg

def mul : Binary64 → Binary64 → Binary64
  | .nan, _ => .nan
  | _, .nan => .nan
  | .infinite s, .infinite t => .infinite (s ^^ t)
  | .infinite s, .finite t b => if b.val = 0 then .nan else .infinite (s ^^ t)
  | .finite s a, .infinite t => if a.val = 0 then .nan else .infinite (s ^^ t)
  | .finite s a, .finite t b =>
      ofRank (s ^^ t) (nearestRank (magnitude a * magnitude b) unitsPerOne)

def div : Binary64 → Binary64 → Binary64
  | .nan, _ => .nan
  | _, .nan => .nan
  | .infinite _, .infinite _ => .nan
  | .infinite s, .finite t _ => .infinite (s ^^ t)
  | .finite s _, .infinite t => zero (s ^^ t)
  | .finite s a, .finite t b =>
      if b.val = 0 then (if a.val = 0 then .nan else .infinite (s ^^ t))
      else ofRatio (s ^^ t) (magnitude a) (magnitude b)

def isZero : Binary64 → Bool
  | .finite _ r => r.val = 0
  | _ => false

def isInfinite : Binary64 → Bool
  | .infinite _ => true
  | _ => false

/-- The integer a finite double is equal to, if there is one. -/
def toInt? : Binary64 → Option Int
  | .finite s r =>
      if magnitude r % unitsPerOne = 0 then
        let whole : Int := (magnitude r / unitsPerOne : Nat)
        some (if s then -whole else whole)
      else none
  | _ => none

end Binary64

end ScopedWhile
