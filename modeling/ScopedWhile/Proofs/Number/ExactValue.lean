import Mathlib.Algebra.Order.Field.Rat
import Mathlib.Order.WithBot
import Mathlib.Tactic.NormNum
import ScopedWhile.Number.Basic
import ScopedWhile.Proofs.Number.Rounding

/-!
The exact values of numbers. An integer is its own value, a finite double has the value that the
fields of its format spell, and an infinity is an end of the line. Main statements: numbers are
ordered and equated as their values are, and a NaN, which has none, is neither.
-/

namespace ScopedWhile

/-- The rationals between two infinities. -/
abbrev ExactValue := WithBot (WithTop ℚ)

namespace ExactValue

def ofRat (q : ℚ) : ExactValue :=
  ((q : WithTop ℚ) : WithBot (WithTop ℚ))

/-- Rational numbers keep their order between the infinities. -/
theorem ofRat_lt_ofRat {p q : ℚ}
    : ofRat p < ofRat q ↔ p < q := by
  rw [ofRat, ofRat, WithBot.coe_lt_coe, WithTop.coe_lt_coe]

/-- Minus infinity is below all rational numbers. -/
theorem bot_lt_ofRat (q : ℚ)
    : ⊥ < ofRat q :=
  WithBot.bot_lt_coe _

/-- Infinity is above all rational numbers. -/
theorem ofRat_lt_top (q : ℚ)
    : ofRat q < ⊤ :=
  WithBot.coe_lt_coe.mpr (WithTop.coe_lt_top q)

end ExactValue

namespace Binary64

/-- The value of a magnitude by the fields of its rank: eleven bits of exponent, biased by 1023,
over 52 bits of fraction. The lowest exponent has no leading one. -/
def magnitudeValue (rank : Nat) : ℚ :=
  let exponent := rank / binade
  let fraction : ℚ := ((rank % binade : Nat) : ℚ) / (binade : Nat)
  if exponent = 0 then fraction * 2 ^ (-1022 : ℤ)
  else (1 + fraction) * 2 ^ ((exponent : ℤ) - 1023)

def signedValue (negative : Bool) (rank : Nat) : ℚ :=
  if negative then -magnitudeValue rank else magnitudeValue rank

end Binary64

/-- The exact value of a number; a NaN has none. -/
def Number.value? : Number → Option ExactValue
  | .int n => some (.ofRat n)
  | .double (.finite s r) => some (.ofRat (Binary64.signedValue s r))
  | .double (.infinite s) => some (if s then ⊥ else ⊤)
  | .double .nan => none

-----------------------------------------------------------------------------------------
-- Values in units
-----------------------------------------------------------------------------------------

theorem pow_two_cast (n : Nat)
    : ((Nat.pow 2 n : Nat) : ℚ) = 2 ^ (n : ℤ) := by
  rw [zpow_natCast]
  exact Nat.cast_pow 2 n

theorem unitsPerOne_cast
    : ((unitsPerOne : Nat) : ℚ) = 2 ^ (1074 : ℤ) :=
  pow_two_cast 1074

theorem unitsPerOne_cast_pos
    : (0 : ℚ) < ((unitsPerOne : Nat) : ℚ) := by
  rw [unitsPerOne_cast]
  exact zpow_pos two_pos _

namespace Binary64

/-- The fields spell the magnitude in units of 2^-1074. -/
theorem magnitudeValue_eq (rank : Nat)
    : magnitudeValue rank = (magnitude rank : ℚ) / (unitsPerOne : Nat) := by
  have two : (2 : ℚ) ≠ 0 := two_ne_zero
  have width : ((binade : Nat) : ℚ) = 2 ^ (52 : ℤ) := pow_two_cast 52
  rw [eq_div_iff unitsPerOne_cast_pos.ne', magnitudeValue, magnitude, unitsPerOne_cast]
  by_cases lowest : rank < binade
  · have exponent : rank / binade = 0 := Nat.div_eq_of_lt lowest
    have fraction : rank % binade = rank := Nat.mod_eq_of_lt lowest
    have powers : (2 : ℚ) ^ (-1022 : ℤ) * 2 ^ (1074 : ℤ) = 2 ^ (52 : ℤ) := by
      rw [← zpow_add₀ two]
      norm_num
    rw [if_pos exponent, if_pos lowest, fraction, width, mul_assoc, powers]
    exact div_mul_cancel₀ _ (zpow_ne_zero _ two)
  · have exponent : 0 < rank / binade :=
      Nat.div_pos (Nat.le_of_not_lt lowest) (pow_two_pos 52)
    have powers (e : Nat) (normal : 0 < e)
        : (2 : ℚ) ^ ((e : ℤ) - 1023) * 2 ^ (1074 : ℤ) = 2 ^ (52 : ℤ) * 2 ^ ((e - 1 : Nat) : ℤ) := by
      rw [← zpow_add₀ two, ← zpow_add₀ two]
      congr 1
      omega
    have whole : (1 + ((rank % binade : Nat) : ℚ) / 2 ^ (52 : ℤ)) * 2 ^ (52 : ℤ)
        = 2 ^ (52 : ℤ) + (rank % binade : Nat) := by
      rw [add_mul, one_mul, div_mul_cancel₀ _ (zpow_ne_zero _ two)]
    rw [if_neg exponent.ne', if_neg lowest, width, mul_assoc, powers _ exponent, ← mul_assoc, whole,
      Nat.cast_mul, Nat.cast_add, width, pow_two_cast]

/-- The signed value is the signed units, counted in ones. -/
theorem signedValue_eq (negative : Bool) (rank : Nat)
    : signedValue negative rank = (signedUnits negative rank : ℚ) / (unitsPerOne : Nat) := by
  cases negative with
  | false =>
      show magnitudeValue rank = (((magnitude rank : Nat) : Int) : ℚ) / (unitsPerOne : Nat)
      rw [magnitudeValue_eq, Int.cast_natCast]
  | true =>
      show -magnitudeValue rank = ((-(magnitude rank : Nat) : Int) : ℚ) / (unitsPerOne : Nat)
      rw [magnitudeValue_eq, Int.cast_neg, Int.cast_natCast, neg_div]

end Binary64

-----------------------------------------------------------------------------------------
-- Positions and values
-----------------------------------------------------------------------------------------

namespace Position

def value : Position → ExactValue
  | .bottom => ⊥
  | .inside units => .ofRat (units / (unitsPerOne : Nat))
  | .top => ⊤

/-- Positions are in the order of their values. -/
theorem lt_iff (p q : Position)
    : p.lt q = true ↔ p.value < q.value := by
  cases p with
  | bottom =>
      cases q with
      | bottom => exact iff_of_false Bool.false_ne_true (lt_irrefl _)
      | inside b => exact iff_of_true rfl (ExactValue.bot_lt_ofRat _)
      | top => exact iff_of_true rfl bot_lt_top
  | inside a =>
      cases q with
      | bottom => exact iff_of_false Bool.false_ne_true not_lt_bot
      | inside b =>
          rw [value, value, ExactValue.ofRat_lt_ofRat,
            div_lt_div_iff_of_pos_right unitsPerOne_cast_pos, Int.cast_lt]
          exact decide_eq_true_iff
      | top => exact iff_of_true rfl (ExactValue.ofRat_lt_top _)
  | top => cases q <;> exact iff_of_false Bool.false_ne_true not_top_lt

/-- Positions neither of which is before the other are the same. -/
theorem eq_of_not_lt {p q : Position} (notBefore : ¬ p.lt q) (notAfter : ¬ q.lt p)
    : p = q := by
  cases p <;> cases q <;> simp_all [lt]
  omega

/-- Different positions have different values. -/
theorem value_injective
    : Function.Injective value := by
  intro p q same
  apply eq_of_not_lt
  · rw [lt_iff, same]
    exact lt_irrefl _
  · rw [lt_iff, same]
    exact lt_irrefl _

end Position

-----------------------------------------------------------------------------------------
-- Comparison by value
-----------------------------------------------------------------------------------------

namespace Number

variable {a b : Number}

/-- The value of a number is that of its position. -/
theorem value?_eq_position? (a : Number)
    : a.value? = a.position?.map Position.value := by
  cases a with
  | int n =>
      have whole : ((n * unitsPerOne : Int) : ℚ) / (unitsPerOne : Nat) = n := by
        rw [Int.cast_mul, Int.cast_natCast, mul_div_cancel_right₀ _ unitsPerOne_cast_pos.ne']
      simp only [value?, position?, Option.map_some, Position.value, whole]
  | double x =>
      cases x with
      | finite s r =>
          simp only [value?, position?, Option.map_some, Position.value, Binary64.signedValue_eq]
      | infinite s => cases s <;> rfl
      | nan => rfl

/-- Only the double that is no number has no value. -/
theorem value?_eq_none
    : a.value? = none ↔ a = .double .nan := by
  cases a with
  | int n => simp [value?]
  | double x => cases x <;> simp [value?]

/-- Both numbers have a value, and it is the same. -/
def SameValue (a b : Number) : Prop :=
  ∃ p, a.value? = some p ∧ b.value? = some p

/-- A number is less than another if their values are. -/
theorem less_iff
    : a.less b = true ↔ ∃ p q, a.value? = some p ∧ b.value? = some q ∧ p < q := by
  simp only [value?_eq_position?, less]
  cases a.position? with
  | none => simp
  | some p =>
      cases b.position? with
      | none => simp
      | some q => simp [Position.lt_iff]

/-- Numbers compare as the same if they have the same value. -/
theorem same_iff
    : a.same b = true ↔ a.SameValue b := by
  simp only [SameValue, value?_eq_position?, same]
  cases a.position? with
  | none => simp
  | some p =>
      cases b.position? with
      | none => simp
      | some q => simp [Position.value_injective.eq_iff, eq_comm]

end Number

end ScopedWhile
