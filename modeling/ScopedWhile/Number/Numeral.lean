import ScopedWhile.Number.Decimal

/-!
The texts of numbers. A numeral is an optional minus sign, whole digits without a leading zero, an
optional fraction and an optional exponent; a double is written with the fewest digits that read
back, positionally or with an exponent.
-/

namespace ScopedWhile

/-- Where a number is written positionally, and how wide its exponent is otherwise. -/
structure NumeralLayout where
  /-- The least leading exponent that is written positionally. -/
  lowest : Int
  /-- The least leading exponent above `lowest` that is not. -/
  limit : Int
  exponentWidth : Nat

namespace NumeralLayout

private def zeros (count : Nat) : List Char :=
  List.replicate count '0'

/-- Digits with the point after the digit of exponent zero, at least one digit on each side. -/
def positional (digits : List Char) (lead : Int) : List Char :=
  if lead < 0 then '0' :: '.' :: zeros (-lead - 1).toNat ++ digits
  else
    let whole := lead.toNat + 1
    if digits.length ≤ whole then digits ++ zeros (whole - digits.length) ++ ['.', '0']
    else digits.take whole ++ '.' :: digits.drop whole

/-- The leading digit, a point if more follow, and the exponent with its sign. -/
def scientific (layout : NumeralLayout) (digits : List Char) (lead : Int) : List Char :=
  let fraction := if digits.length ≤ 1 then [] else '.' :: digits.drop 1
  let exponent := Decimal.digitsOf lead.natAbs
  digits.take 1 ++ fraction ++ 'e' :: (if lead < 0 then '-' else '+')
    :: zeros (layout.exponentWidth - exponent.length) ++ exponent

/-- The text of a positive decimal; trailing zeros of its digits do not show. -/
def render (layout : NumeralLayout) (d : Decimal) : List Char :=
  let all := Decimal.digitsOf d.digits
  let digits := (all.reverse.dropWhile (· = '0')).reverse
  let lead := d.exponent + all.length - 1
  if layout.lowest ≤ lead ∧ lead < layout.limit then positional digits lead
  else layout.scientific digits lead

end NumeralLayout

namespace Binary64

/-- Positional from 10^-4 up to below 10^16, otherwise an exponent of at least two digits. -/
def layout : NumeralLayout where
  lowest := -4
  limit := 16
  exponentWidth := 2

private def signed (negative : Bool) (text : String) : String :=
  if negative then "-" ++ text else text

def text : Binary64 → String
  | .finite s r =>
      signed s (if r.val = 0 then "0.0" else String.ofList (layout.render (Decimal.shortest r)))
  | .infinite s => signed s "inf"
  | .nan => "nan"

end Binary64

/-- A numeral as it is spelled. -/
structure Numeral where
  negative : Bool
  whole : List Char
  fraction : Option (List Char)
  exponent : Option Int
deriving DecidableEq

namespace Numeral

/-- The number that decimal digits spell. -/
def natOf (digits : List Char) : Nat :=
  digits.foldl (fun n c => n * 10 + (c.toNat - '0'.toNat)) 0

/-- The longest run of digits at the front, if there is one, and what follows. -/
def digits? (text : List Char) : Option (List Char × List Char) :=
  match text.span Char.isDigit with
  | ([], _) => none
  | (digits, rest) => some (digits, rest)

/-- Whole digits: a single zero, or digits that do not start with one. -/
def whole? (text : List Char) : Option (List Char × List Char) :=
  match text with
  | '0' :: rest => some (['0'], rest)
  | _ => digits? text

def fraction? (text : List Char) : Option (Option (List Char) × List Char) :=
  match text with
  | '.' :: rest => (digits? rest).map fun (digits, rest) => (some digits, rest)
  | _ => some (none, text)

def exponent? (text : List Char) : Option (Option Int × List Char) :=
  let spelled (sign : Int) (text : List Char) :=
    (digits? text).map fun (digits, rest) => (some (sign * natOf digits), rest)
  match text with
  | [] => some (none, [])
  | mark :: rest =>
      if mark = 'e' ∨ mark = 'E' then
        match rest with
        | '-' :: rest => spelled (-1) rest
        | '+' :: rest => spelled 1 rest
        | _ => spelled 1 rest
      else some (none, text)

/-- Reads a numeral at the front of a text and returns what follows it. -/
def read? (text : List Char) : Option (Numeral × List Char) := do
  let (negative, text) := match text with
    | '-' :: rest => (true, rest)
    | _ => (false, text)
  let (whole, text) ← whole? text
  let (fraction, text) ← fraction? text
  let (exponent, text) ← exponent? text
  return ({ negative, whole, fraction, exponent }, text)

/-- The integer that a numeral without fraction and exponent spells. -/
def toInt? (n : Numeral) : Option Int :=
  match n.fraction, n.exponent with
  | none, none => some (if n.negative then -(natOf n.whole : Int) else natOf n.whole)
  | _, _ => none

def toBinary64 (n : Numeral) : Binary64 :=
  let fraction := n.fraction.getD []
  Decimal.toBinary64
    { digits := natOf (n.whole ++ fraction)
      exponent := n.exponent.getD 0 - fraction.length }
    n.negative

end Numeral

/-- Reads a double as `Binary64.text` writes it. -/
def Binary64.ofText? (text : String) : Option Binary64 :=
  match text with
  | "inf" => some (.infinite false)
  | "-inf" => some (.infinite true)
  | "nan" => some .nan
  | _ => match Numeral.read? text.toList with
    | some (numeral, []) => some numeral.toBinary64
    | _ => none

end ScopedWhile
