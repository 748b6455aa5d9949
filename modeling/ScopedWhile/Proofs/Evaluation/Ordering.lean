import ScopedWhile.Evaluation.Operator
import ScopedWhile.Proofs.Number.ExactValue

/-!
The comparisons of the language. Whatever mixture of integers and doubles they are given, they find
the order of the exact values, so that they form one consistent order among all numbers but NaN.
-/

namespace ScopedWhile

namespace Operator

def isComparison : Operator → Bool
  | .less | .equal | .greater => true
  | _ => false

/-- The operator gives true on two numbers. -/
def Finds (op : Operator) (a b : Number) : Prop :=
  op.apply (.number a) (.number b) = .ok (.boolean true)

instance (op : Operator) (a b : Number) : Decidable (op.Finds a b) :=
  inferInstanceAs (Decidable (_ = _))

/-- What a comparison asks of exact values. -/
def Relates : Operator → ExactValue → ExactValue → Prop
  | .less, p, q => p < q
  | .equal, p, q => p = q
  | .greater, p, q => q < p
  | _, _, _ => False

variable {op : Operator} {a b : Number}

/-- A comparison of two numbers gives a boolean, whatever they are. -/
theorem apply_comparison (comparison : op.isComparison) (a b : Number)
    : op.apply (.number a) (.number b) = .ok (.boolean (decide (op.Finds a b))) := by
  cases op <;> simp [isComparison] at comparison
  all_goals simp [Finds, apply, applyNumbers]

/-- Greater is less the other way round. -/
theorem finds_greater
    : Finds .greater a b ↔ Finds .less b a := by
  simp [Finds, apply, applyNumbers]

/-- A comparison holds exactly if both numbers have values that are so related. -/
theorem finds_iff (comparison : op.isComparison)
    : op.Finds a b ↔ ∃ p q, a.value? = some p ∧ b.value? = some q ∧ op.Relates p q := by
  have less (a b : Number)
      : Finds .less a b ↔ ∃ p q, a.value? = some p ∧ b.value? = some q ∧ p < q := by
    rw [← Number.less_iff]
    simp [Finds, apply, applyNumbers]
  have equal : Finds .equal a b ↔ a.SameValue b := by
    rw [← Number.same_iff]
    simp [Finds, apply, applyNumbers]
  cases op <;> simp only [isComparison, Bool.false_eq_true] at comparison
  case less => exact less a b
  case equal =>
    rw [equal]
    constructor
    · rintro ⟨p, first, second⟩
      exact ⟨p, p, first, second, rfl⟩
    · rintro ⟨p, _, first, second, rfl⟩
      exact ⟨p, first, second⟩
  case greater =>
    rw [finds_greater, less]
    constructor
    · rintro ⟨q, p, second, first, lt⟩
      exact ⟨p, q, first, second, lt⟩
    · rintro ⟨p, q, first, second, lt⟩
      exact ⟨q, p, second, first, lt⟩

/-- Two values stand in exactly one of the relations that comparisons ask for. -/
theorem existsUnique_relates (p q : ExactValue)
    : ∃! op : Operator, op.isComparison ∧ op.Relates p q := by
  rcases lt_trichotomy p q with lt | rfl | gt
  · refine ⟨.less, ⟨rfl, lt⟩, ?_⟩
    rintro op ⟨-, relates⟩
    cases op <;> simp only [Relates] at relates
    case less => rfl
    case equal => exact absurd relates lt.ne
    case greater => exact absurd relates lt.asymm
  · refine ⟨.equal, ⟨rfl, rfl⟩, ?_⟩
    rintro op ⟨-, relates⟩
    cases op <;> simp only [Relates, lt_irrefl] at relates
    rfl
  · refine ⟨.greater, ⟨rfl, gt⟩, ?_⟩
    rintro op ⟨-, relates⟩
    cases op <;> simp only [Relates] at relates
    case less => exact absurd relates gt.asymm
    case equal => exact absurd relates.symm gt.ne
    case greater => rfl

end Operator

/-- The numbers that have a value. -/
abbrev Number.Valued := { a : Number // a ≠ .double .nan }

namespace Number
open Operator (Finds)

theorem exists_value (a : Valued)
    : ∃ p, a.val.value? = some p :=
  Option.ne_none_iff_exists'.mp fun none => a.property (value?_eq_none.mp none)

/-- Where both values are known, a comparison holds exactly if they are so related. -/
theorem finds_of_values {op : Operator} {a b : Number} {p q : ExactValue}
    (comparison : op.isComparison) (first : a.value? = some p) (second : b.value? = some q)
    : op.Finds a b ↔ op.Relates p q := by
  rw [Operator.finds_iff comparison]
  constructor
  · rintro ⟨p', q', first', second', relates⟩
    rw [first, Option.some.injEq] at first'
    rw [second, Option.some.injEq] at second'
    subst first' second'
    exact relates
  · exact fun relates => ⟨p, q, first, second, relates⟩

/-- Nothing compares with what is not a number. -/
theorem not_finds_nan {op : Operator} {a b : Number} (comparison : op.isComparison)
    (invalid : a = .double .nan ∨ b = .double .nan)
    : ¬ op.Finds a b := by
  rw [Operator.finds_iff comparison]
  rintro ⟨p, q, first, second, -⟩
  rcases invalid with rfl | rfl
  · cases first
  · cases second

/-- Of two numbers with values exactly one comparison holds, since the values are linearly ordered.
-/
theorem existsUnique_finds (a b : Valued)
    : ∃! op : Operator, op.isComparison ∧ op.Finds a b := by
  obtain ⟨p, first⟩ := exists_value a
  obtain ⟨q, second⟩ := exists_value b
  obtain ⟨op, ⟨comparison, relates⟩, only⟩ := Operator.existsUnique_relates p q
  refine ⟨op, ⟨comparison, (finds_of_values comparison first second).mpr relates⟩, ?_⟩
  rintro other ⟨comparison', finds⟩
  exact only other ⟨comparison', (finds_of_values comparison' first second).mp finds⟩

/-- Less is transitive, as it is on values. -/
theorem finds_less_trans {a b c : Number} (first : Finds .less a b) (second : Finds .less b c)
    : Finds .less a c := by
  obtain ⟨p, q, atA, atB, before⟩ := (Operator.finds_iff rfl).mp first
  obtain ⟨q', r, atB', atC, after⟩ := (Operator.finds_iff rfl).mp second
  obtain rfl : q = q' := Option.some.inj (atB.symm.trans atB')
  exact (finds_of_values rfl atA atC).mpr (lt_trans before after)

theorem value?_eq_of_finds_equal {a b : Number} (equal : Finds .equal a b)
    : a.value? = b.value? := by
  obtain ⟨p, q, first, second, same⟩ := (Operator.finds_iff rfl).mp equal
  rw [first, second, same]

/-- Numbers compare equal exactly if they have the same value. -/
theorem finds_equal_iff (a b : Valued)
    : Finds .equal a b ↔ a.val.value? = b.val.value? := by
  obtain ⟨p, first⟩ := exists_value a
  obtain ⟨q, second⟩ := exists_value b
  rw [finds_of_values rfl first second, first, second, Option.some.injEq]
  rfl

/-- Equality is an equivalence among the numbers with values. -/
theorem equivalence_finds_equal
    : Equivalence fun a b : Valued => Finds .equal a.val b.val := by
  simp only [finds_equal_iff]
  exact ⟨fun _ => rfl, Eq.symm, Eq.trans⟩

/-- Equal numbers are less than the same numbers. -/
theorem finds_less_congr {a a' b b' : Number} (first : Finds .equal a a')
    (second : Finds .equal b b')
    : Finds .less a b ↔ Finds .less a' b' := by
  rw [Operator.finds_iff rfl, Operator.finds_iff rfl, value?_eq_of_finds_equal first,
    value?_eq_of_finds_equal second]

/-- Comparisons never fail and go by exact value, and so they are one order: two numbers stand in
exactly one of the three relations, two of which mirror each other, less is transitive and equality
an equivalence that it respects. A NaN is in none of them. -/
theorem comparisons_form_one_order
    : (∀ op : Operator, op.isComparison → ∀ a b : Number,
        (∃ holds, op.apply (.number a) (.number b) = .ok (.boolean holds))
        ∧ (op.Finds a b
          ↔ ∃ p q, a.value? = some p ∧ b.value? = some q ∧ op.Relates p q)
        ∧ (a = .double .nan ∨ b = .double .nan
          → op.apply (.number a) (.number b) = .ok (.boolean false)))
      ∧ (∀ a b : Number, Finds .greater a b ↔ Finds .less b a)
      ∧ (∀ a b : Number, a ≠ .double .nan → b ≠ .double .nan
        → ∃! op : Operator, op.isComparison ∧ op.Finds a b)
      ∧ (∀ a b c : Number, Finds .less a b → Finds .less b c → Finds .less a c)
      ∧ Equivalence (fun a b : Valued => Finds .equal a.val b.val)
      ∧ ∀ a a' b b' : Number, Finds .equal a a' → Finds .equal b b'
        → (Finds .less a b ↔ Finds .less a' b') := by
  refine ⟨?_, fun _ _ => Operator.finds_greater, ?_, fun _ _ _ => finds_less_trans,
    equivalence_finds_equal, fun _ _ _ _ => finds_less_congr⟩
  · intro op comparison a b
    have gives := Operator.apply_comparison comparison a b
    refine ⟨⟨_, gives⟩, Operator.finds_iff comparison, ?_⟩
    intro invalid
    rw [gives, decide_eq_false (not_finds_nan comparison invalid)]
  · intro a b valued valued'
    exact existsUnique_finds ⟨a, valued⟩ ⟨b, valued'⟩

/-- The integer 2^53 + 1 is strictly between the doubles next to it, and one far beyond the range of
doubles is less than infinity. -/
theorem comparisons_form_one_order_large
    : let below : Number := .double (.ofInt (2 ^ 53))
      let between : Number := .int (2 ^ 53 + 1)
      let above : Number := .double (.ofInt (2 ^ 53 + 2))
      let beyond : Number := .int (10 ^ 400)
      let infinity : Number := .double (.infinite false)
      Finds .less below between ∧ Finds .less between above ∧ Finds .less above beyond
      ∧ Finds .less beyond infinity
      ∧ Finds .less below infinity
      ∧ Finds .greater infinity between
      ∧ (∃! op : Operator, op.isComparison ∧ op.Finds between above)
      ∧ Operator.equal.apply (.number (.double .nan)) (.number (.double .nan))
        = .ok (.boolean false) := by
  obtain ⟨each, mirrored, unique, transitive, -, -⟩ := comparisons_form_one_order
  have first : Finds .less (.double (.ofInt (2 ^ 53))) (.int (2 ^ 53 + 1)) := by decide +kernel
  have second : Finds .less (.int (2 ^ 53 + 1)) (.double (.ofInt (2 ^ 53 + 2))) := by decide +kernel
  have third : Finds .less (.double (.ofInt (2 ^ 53 + 2))) (.int (10 ^ 400)) := by decide +kernel
  have last : Finds .less (.int (10 ^ 400)) (.double (.infinite false)) := by decide +kernel
  have rest := transitive _ _ _ second (transitive _ _ _ third last)
  exact ⟨first, second, third, last, transitive _ _ _ first rest, (mirrored _ _).mpr rest,
    unique _ _ (by decide) (by decide +kernel), (each .equal rfl _ _).2.2 (Or.inl rfl)⟩

end Number

end ScopedWhile
