import ScopedWhile.Datum.Basic
import ScopedWhile.Proofs.Number.ExactValue
import ScopedWhile.Proofs.Number.Reading

/-!
Displayed text identifies the value. Integers are displayed by digits and a sign alone, and so are
the integral doubles below a limit; the text of every other double has some other character and
reads as that double. Main statement: values that are displayed alike are the same boolean, numbers
of one exact value, or both NaN.
-/

namespace ScopedWhile

-----------------------------------------------------------------------------------------
-- Texts with a sign
-----------------------------------------------------------------------------------------

namespace Numeral

/-- A sign in front of a numeral makes it negative. -/
theorem read?_minus {text rest : List Char} {n : Numeral}
    (digit : ∃ first others, text = first :: others ∧ first.isDigit)
    (read : read? text = some (n, rest))
    : read? ('-' :: text) = some ({ n with negative := true }, rest) := by
  obtain ⟨body, afterWhole, afterFraction, split, readWhole, readFraction, readExponent⟩ :=
    parts_of_read? read
  obtain ⟨first, others, rfl, isDigit⟩ := digit
  cases sign : n.negative with
  | true =>
      rw [sign] at split
      cases split
      cases isDigit
  | false =>
      rw [sign] at split
      obtain rfl : first :: others = body := split
      simp [read?, readWhole, readFraction, readExponent]

/-- A numeral is read with the sign in front of it. -/
theorem read?_signed {text : List Char} {n : Numeral}
    (digit : ∃ first others, text = first :: others ∧ first.isDigit)
    (unsigned : n.negative = false) (read : read? text = some (n, [])) (negative : Bool)
    : read? ((if negative then "-" else "") ++ String.ofList text).toList
      = some ({ n with negative }, []) := by
  rw [String.toList_append, String.toList_ofList]
  cases negative with
  | true => exact read?_minus digit read
  | false =>
      obtain ⟨sign, whole, fraction, exponent⟩ := n
      obtain rfl : sign = false := unsigned
      exact read

/-- The text of an integer is read as a numeral that spells it. -/
theorem exists_read?_toString (n : Int)
    : ∃ numeral, read? (toString n).toList = some (numeral, []) ∧ numeral.toInt? = some n := by
  have digits : read? (Decimal.digitsOf n.natAbs ++ fractionText none ++ exponentText none ++ [])
      = some (⟨false, Decimal.digitsOf n.natAbs, none, none⟩, []) :=
    read?_append (isWhole_digitsOf n.natAbs) (by simp) (by simp) (by rintro _ ⟨⟩)
  simp only [fractionText, exponentText, List.append_nil] at digits
  obtain ⟨-, -, -, digit, -⟩ := Number.digitsOf_spells n.natAbs
  rw [Number.toString_int]
  refine ⟨_, read?_signed digit rfl digits (decide (n < 0)), ?_⟩
  simp only [toInt?, natOf_digitsOf, Option.some.injEq, decide_eq_true_eq]
  split
  · omega
  · omega

/-- Integers with the same digits are the same, since the digits read back. -/
theorem toString_injective {m n : Int} (same : toString m = toString n)
    : m = n := by
  obtain ⟨first, read, value⟩ := exists_read?_toString m
  obtain ⟨second, read', value'⟩ := exists_read?_toString n
  rw [same, read', Option.some.injEq, Prod.mk.injEq] at read
  rw [← read.1, value', Option.some.injEq] at value
  exact value.symm

end Numeral

namespace Binary64

/-- A text that reads as a numeral has the value of the numeral. -/
theorem ofText?_of_read {text : String} {n : Numeral}
    (read : Numeral.read? text.toList = some (n, []))
    : ofText? text = some n.toBinary64 := by
  unfold ofText?
  split
  · cases read
  · cases read
  · cases read
  · rw [read]

/-- A sign and a numeral are read as the double nearest to what they spell. -/
theorem ofText?_spells {text : List Char} {d : Decimal} (spells : NumeralLayout.Spells text d)
    (negative : Bool)
    : ofText? ((if negative then "-" else "") ++ String.ofList text)
      = some (ofRank negative d.exactRank) := by
  obtain ⟨n, unsigned, value, digit, reads⟩ := spells
  have read : Numeral.read? text = some (n, []) := by
    have found := reads [] (by rintro _ ⟨⟩)
    rwa [List.append_nil] at found
  rw [ofText?_of_read (Numeral.read?_signed digit unsigned read negative), ← value]
  exact congrArg some (Decimal.toBinary64_eq_ofRank n.decimal negative)

/-- The digits of an integer have the value nearest to it. -/
theorem ofText?_toString (n : Int)
    : ofText? (toString n) = some (ofInt n) := by
  rw [Number.toString_int, ofText?_spells (Number.digitsOf_spells n.natAbs), Decimal.exactRank_nat]
  rfl

/-- The text of a double reads as that double. -/
theorem ofText?_text (x : Binary64)
    : ofText? x.text = some x := by
  cases x with
  | nan => rfl
  | infinite negative => cases negative <;> rfl
  | finite negative rank =>
      by_cases zero : rank.val = 0
      · obtain rfl : rank = ⟨0, by decide⟩ := Fin.ext zero
        cases negative <;> decide +kernel
      · have reads := Decimal.exactRank_shortest rank.isLt
        have spells := layout.render_spells (Decimal.digits_ne_zero (by rwa [reads]))
        rw [Number.text_finite negative zero, ofText?_spells spells, reads, ofRank,
          dif_pos rank.isLt]

end Binary64

-----------------------------------------------------------------------------------------
-- Texts of integers and texts of doubles
-----------------------------------------------------------------------------------------

namespace NumeralLayout

/-- A positional text has a point. -/
theorem mem_positional (digits : List Char) (lead : Int)
    : '.' ∈ positional digits lead := by
  unfold positional
  split
  · simp
  · dsimp only
    split <;> simp

/-- A scientific text has an exponent. -/
theorem mem_scientific (layout : NumeralLayout) (digits : List Char) (lead : Int)
    : 'e' ∈ layout.scientific digits lead := by
  simp [scientific]

/-- The text of a decimal has a point or an exponent. -/
theorem mem_render (layout : NumeralLayout) (d : Decimal)
    : '.' ∈ layout.render d ∨ 'e' ∈ layout.render d := by
  unfold render
  dsimp only
  split
  · exact Or.inl (mem_positional _ _)
  · exact Or.inr (mem_scientific _ _ _)

end NumeralLayout

/-- A character of the text of an integer. -/
def isIntegerCharacter (c : Char) : Bool :=
  c.isDigit || c = '-'

/-- Integers are written with digits and a sign only. -/
theorem all_toString (n : Int)
    : (toString n).toList.all isIntegerCharacter := by
  rw [Number.toString_int, String.toList_append, String.toList_ofList, List.all_append,
    Bool.and_eq_true, List.all_eq_true (l := Decimal.digitsOf n.natAbs)]
  constructor
  · split <;> rfl
  · intro c member
    simp [isIntegerCharacter, Numeral.digitsOf_isDigit member]

/-- No double has a text of digits and a sign only. -/
theorem Binary64.not_all_text (x : Binary64)
    : ¬ x.text.toList.all isIntegerCharacter := by
  cases x with
  | nan => decide
  | infinite negative => cases negative <;> decide
  | finite negative rank =>
      by_cases zero : rank.val = 0
      · obtain rfl : rank = ⟨0, by decide⟩ := Fin.ext zero
        cases negative <;> decide
      · rw [Number.text_finite negative zero, String.toList_append, String.toList_ofList,
          List.all_append, Bool.and_eq_true, not_and]
        intro _ all
        rcases layout.mem_render (Decimal.shortest rank) with point | mark
        · exact absurd (List.all_eq_true.mp all _ point) (by decide)
        · exact absurd (List.all_eq_true.mp all _ mark) (by decide)

/-- No double has the text of an integer. -/
theorem Binary64.text_ne_toString (x : Binary64) (n : Int)
    : x.text ≠ toString n := by
  intro same
  exact x.not_all_text (same ▸ all_toString n)

-----------------------------------------------------------------------------------------
-- Numbers of one value
-----------------------------------------------------------------------------------------

namespace Binary64

theorem unitsPerOne_pos
    : 0 < unitsPerOne :=
  pow_two_pos 1074

/-- The signed units are those of the magnitude, with the sign. -/
theorem signedUnits_eq (s : Bool) (rank : Nat)
    : signedUnits s rank = (if s then -1 else 1) * (magnitude rank : Int) := by
  cases s <;> simp [signedUnits]

/-- A finite double is an integer if its units are that many whole ones. -/
theorem toInt?_finite_iff {s : Bool} {rank : Fin rankLimit} {n : Int}
    : (finite s rank).toInt? = some n ↔ signedUnits s rank = n * unitsPerOne := by
  have pos := unitsPerOne_pos
  rw [Number.toInt?_finite, signedUnits_eq]
  have unit : (if s then -1 else 1 : Int) * (if s then -1 else 1) = 1 := by
    cases s <;> rfl
  generalize (if s then -1 else 1 : Int) = sign at *
  generalize magnitude rank = m
  generalize unitsPerOne = units at *
  by_cases divides : units ∣ m
  · obtain ⟨whole, rfl⟩ := divides
    rw [if_pos (Nat.mul_mod_right units whole), Nat.mul_div_cancel_left whole pos,
      Option.some.injEq, Nat.cast_mul, mul_left_comm, mul_comm n]
    exact (Int.mul_eq_mul_left_iff (by omega)).symm
  · rw [if_neg fun zero => divides (Nat.dvd_of_mod_eq_zero zero)]
    constructor
    · intro none
      cases none
    · intro same
      refine absurd (Int.natCast_dvd_natCast.mp ⟨sign * n, ?_⟩) divides
      calc (m : Int)
          = sign * (sign * m) := by rw [← mul_assoc, unit, one_mul]
        _ = units * (sign * n) := by rw [same, mul_comm n, mul_left_comm]

/-- Different ranks have different magnitudes. -/
theorem magnitude_injective {rank other : Nat} (same : magnitude rank = magnitude other)
    : rank = other := by
  rcases Nat.lt_trichotomy rank other with lt | equal | gt
  · exact absurd same (Nat.ne_of_lt (magnitude_lt lt))
  · exact equal
  · exact absurd same.symm (Nat.ne_of_lt (magnitude_lt gt))

/-- Only the two zeros have one value and two signs. -/
theorem eq_of_signedUnits {s t : Bool} {rank other : Nat}
    (same : signedUnits s rank = signedUnits t other)
    : rank = other ∧ (s = t ∨ rank = 0) := by
  have zero : magnitude 0 = 0 := rfl
  have equal : rank = other := by
    apply magnitude_injective
    cases s <;> cases t <;> simp [signedUnits] at same <;> omega
  subst equal
  refine ⟨rfl, ?_⟩
  by_cases signs : s = t
  · exact Or.inl signs
  · right
    apply magnitude_injective
    cases s <;> cases t <;> simp [signedUnits] at same signs <;> omega

end Binary64

namespace Number

variable {a b c : Number}

/-- Numbers have the same value if they have the same position. -/
theorem sameValue_iff
    : a.SameValue b ↔ ∃ p, a.position? = some p ∧ b.position? = some p := by
  rw [← same_iff, same]
  cases a.position? <;> cases b.position? <;> simp [eq_comm]

theorem SameValue.symm (same : a.SameValue b)
    : b.SameValue a := by
  obtain ⟨p, first, second⟩ := same
  exact ⟨p, second, first⟩

theorem SameValue.trans (first : a.SameValue b) (second : b.SameValue c)
    : a.SameValue c := by
  obtain ⟨p, atA, atB⟩ := first
  obtain ⟨q, atB', atC⟩ := second
  exact ⟨p, atA, by rw [atC, ← atB', atB]⟩

/-- A double is converted to the integer of the same value. -/
theorem toInt?_eq_some {x : Binary64} {n : Int}
    : x.toInt? = some n ↔ (double x).SameValue (int n) := by
  rw [sameValue_iff]
  constructor
  · intro integral
    cases x with
    | nan | infinite => cases integral
    | finite s rank =>
        have units := Binary64.toInt?_finite_iff.mp integral
        exact ⟨_, rfl, congrArg (fun units => some (Position.inside units)) units.symm⟩
  · rintro ⟨p, atX, atN⟩
    cases x with
    | nan => cases atX
    | infinite s => cases s <;> cases atX <;> cases atN
    | finite s rank =>
        cases atX
        exact Binary64.toInt?_finite_iff.mpr (Position.inside.inj (Option.some.inj atN)).symm

-----------------------------------------------------------------------------------------
-- Display
-----------------------------------------------------------------------------------------

/-- A double with the value of an integer is shown as the integer, unless it is too large for that.
-/
theorem display_integral {x : Binary64} {n : Int} (same : (double x).SameValue (int n))
    : (double x).display = if n.natAbs < plainLimit then toString n else x.text := by
  simp only [display, toInt?_eq_some.mpr same]

/-- Every number is displayed as an integer of its value or as a double is written in data. -/
theorem display_cases (a : Number)
    : (∃ n : Int, a.display = toString n ∧ a.SameValue (int n))
      ∨ ∃ x, a = double x ∧ a.display = x.text := by
  cases a with
  | int n => exact Or.inl ⟨n, rfl, ⟨_, rfl, rfl⟩⟩
  | double x =>
      cases integral : x.toInt? with
      | none =>
          right
          exact ⟨x, rfl, by simp only [display, integral]⟩
      | some n =>
          have same := toInt?_eq_some.mp integral
          rw [display_integral same]
          split
          · exact Or.inl ⟨n, rfl, same⟩
          · exact Or.inr ⟨x, rfl, rfl⟩

/-- Numbers that are displayed alike have one value or are both NaN. -/
theorem sameValue_of_display (alike : a.display = b.display)
    : a.SameValue b ∨ a = .double .nan ∧ b = .double .nan := by
  rcases display_cases a with ⟨m, textA, sameA⟩ | ⟨x, rfl, textA⟩
  · rcases display_cases b with ⟨n, textB, sameB⟩ | ⟨y, rfl, textB⟩
    · obtain rfl : m = n := Numeral.toString_injective (by rw [← textA, ← textB, alike])
      exact Or.inl (sameA.trans sameB.symm)
    · exact absurd (by rw [← textA, ← textB, alike]) (y.text_ne_toString m)
  · rcases display_cases b with ⟨n, textB, sameB⟩ | ⟨y, rfl, textB⟩
    · exact absurd (by rw [← textA, ← textB, alike]) (x.text_ne_toString n)
    · have texts : x.text = y.text := by rw [← textA, ← textB, alike]
      obtain rfl : x = y := by
        have read := x.ofText?_text
        rw [texts, y.ofText?_text, Option.some.injEq] at read
        exact read.symm
      cases value : (double x).value? with
      | none => exact Or.inr ⟨value?_eq_none.mp value, value?_eq_none.mp value⟩
      | some p => exact Or.inl ⟨p, value, value⟩

/-- Doubles of the same value are shown alike. -/
theorem display_of_sameValue {x y : Binary64} (same : (double x).SameValue (double y))
    : (double x).display = (double y).display := by
  obtain ⟨p, atX, atY⟩ := sameValue_iff.mp same
  cases x with
  | nan => cases atX
  | infinite s =>
      cases y with
      | nan => cases atY
      | finite t other => cases s <;> cases atX <;> cases atY
      | infinite t => cases s <;> cases t <;> cases atX <;> cases atY <;> rfl
  | finite s rank =>
      cases y with
      | nan => cases atY
      | infinite t => cases t <;> cases atX <;> cases atY
      | finite t other =>
          simp only [position?, Option.some.injEq] at atX atY
          rw [← atY, Position.inside.injEq] at atX
          obtain ⟨equal, signs⟩ := Binary64.eq_of_signedUnits atX
          obtain rfl : rank = other := Fin.ext equal
          rcases signs with rfl | zero
          · rfl
          · have value (sign : Bool) : (double (.finite sign rank)).display = "0" := by
              obtain rfl : rank = ⟨0, by decide⟩ := Fin.ext zero
              cases sign <;> decide +kernel
            rw [value, value]

/-- Every number is displayed as a text that reads as some double. -/
theorem exists_ofText?_display (a : Number)
    : ∃ x, Binary64.ofText? a.display = some x := by
  rcases display_cases a with ⟨n, text, -⟩ | ⟨x, -, text⟩
  · exact ⟨_, text ▸ Binary64.ofText?_toString n⟩
  · exact ⟨x, text ▸ x.ofText?_text⟩

end Number

/-- The same boolean, numbers of one value, or NaN twice. -/
inductive Value.Coincides : Value → Value → Prop where
  | boolean (b : Bool)
    : Coincides (.boolean b) (.boolean b)
  | number {a b : Number} (same : a.SameValue b)
    : Coincides (.number a) (.number b)
  | nan
    : Coincides (.number (.double .nan)) (.number (.double .nan))

/-- Different booleans are shown differently. -/
theorem Value.boolean_of_display {a b : Bool}
    (same : (Value.boolean a).display = (Value.boolean b).display)
    : a = b := by
  revert a b
  decide

/-- No boolean is shown like a number. -/
theorem Value.display_boolean_ne (b : Bool) (a : Number)
    : (Value.boolean b).display ≠ (Value.number a).display := by
  intro same
  obtain ⟨x, read⟩ := a.exists_ofText?_display
  have none : Binary64.ofText? (Value.boolean b).display = none := by
    cases b <;> rfl
  rw [same] at none
  cases none.symm.trans read

/-- Values with one display coincide. Doubles of one value are displayed alike, and an integer and a
double of one value exactly if it is below 10^16. -/
theorem Value.display_identifies
    : (∀ a b : Value, a.display = b.display → a.Coincides b)
      ∧ (∀ x y : Binary64, (Number.double x).SameValue (.double y)
        → (Number.double x).display = (Number.double y).display)
      ∧ ∀ (n : Int) (x : Binary64), (Number.int n).SameValue (.double x)
        → ((Number.int n).display = (Number.double x).display ↔ n.natAbs < 10 ^ 16) := by
  refine ⟨?_, fun x y => Number.display_of_sameValue, ?_⟩
  · intro a b same
    cases a with
    | boolean a =>
        cases b with
        | boolean b =>
            obtain rfl := boolean_of_display same
            exact .boolean a
        | number b => exact absurd same (display_boolean_ne a b)
    | number a =>
        cases b with
        | boolean b => exact absurd same.symm (display_boolean_ne b a)
        | number b =>
            rcases Number.sameValue_of_display same with equal | ⟨rfl, rfl⟩
            · exact .number equal
            · exact .nan
  · intro n x same
    have limit : Number.plainLimit = 10 ^ 16 := rfl
    rw [Number.display_integral same.symm, limit]
    split
    next small => exact iff_of_true rfl small
    next large => exact iff_of_false (fun equal => x.text_ne_toString n equal.symm) large

/-- At the limit an integer and a double of one value are displayed apart. Below it they are not, and
neither are the two zeros. -/
theorem Value.display_identifies_limit
    : let zero (negative : Bool) : Number := .double (.zero negative)
      let below : Int := 10 ^ 16 - 2
      let limit : Int := 10 ^ 16
      (zero true).SameValue (zero false) ∧ (zero true).display = (zero false).display
      ∧ (Number.int below).SameValue (.double (.ofInt below))
      ∧ (Number.int below).display = (Number.double (.ofInt below)).display
      ∧ (Value.number (.int below)).Coincides (.number (.double (.ofInt below)))
      ∧ (Number.int limit).SameValue (.double (.ofInt limit))
      ∧ (Number.int limit).display ≠ (Number.double (.ofInt limit)).display := by
  obtain ⟨identified, alike, apart⟩ := Value.display_identifies
  have zeros : (Number.double (.zero true)).SameValue (.double (.zero false)) :=
    Number.same_iff.mp (by decide +kernel)
  have below : (Number.int (10 ^ 16 - 2)).SameValue (.double (.ofInt (10 ^ 16 - 2))) :=
    Number.same_iff.mp (by decide +kernel)
  have limit : (Number.int (10 ^ 16)).SameValue (.double (.ofInt (10 ^ 16))) :=
    Number.same_iff.mp (by decide +kernel)
  have same := (apart _ _ below).mpr (by decide)
  exact ⟨zeros, alike _ _ zeros, below, same, identified _ _ same, limit,
    fun equal => absurd ((apart _ _ limit).mp equal) (by decide)⟩

end ScopedWhile
