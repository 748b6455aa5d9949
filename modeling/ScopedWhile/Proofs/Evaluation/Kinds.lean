import ScopedWhile.Proofs.Language.Site
import ScopedWhile.Evaluation.Expr

/-!
Kinds of values. From the kinds of the names in an expression one can foresee the kind of its value,
or else which name or which operator is at fault: values themselves matter only to divisions by zero
and to numbers beyond the range of doubles. Main statement: on chains that give the names of an
expression the same kinds, its evaluations end alike.
-/

namespace ScopedWhile

inductive ValueKind where
  | boolean
  | number
deriving DecidableEq

/-- Integers and doubles are of one kind. -/
def Value.kind : Value → ValueKind
  | .boolean _ => .boolean
  | .number _ => .number

/-- The faults that depend on how large numbers are. -/
def Fault.isNumeric : Fault → Bool
  | .divisionByZero | .arithmetic _ => true
  | _ => false

namespace Operator

/-- The kind of all results of an operator. -/
def resultKind : Operator → ValueKind
  | .add | .sub | .mul | .div => .number
  | .greater | .less | .and | .or | .equal => .boolean

/-- Whether operands of these kinds are what an operator requires. -/
def admits (op : Operator) (a b : ValueKind) : Bool :=
  match op.requirement with
  | .numbers => a = .number && b = .number
  | .booleans => a = .boolean && b = .boolean
  | .comparable => a = b

/-- What can be said of a result when only the kinds of the operands are known. -/
def foresee (op : Operator) (a b : ValueKind) : Except Fault ValueKind :=
  if op.admits a b then .ok op.resultKind else .error op.mismatch

end Operator

/-- What can be said of an expression when only the kinds of names are known. -/
def Expr.foresee (kind? : String → Option ValueKind) : Expr → Except Fault ValueKind
  | .boolean _ => .ok .boolean
  | .number _ => .ok .number
  | .var name => match kind? name with
    | some kind => .ok kind
    | none => .error (.undefinedVariable name)
  | .binary op left right => match left.foresee kind? with
    | .error fault => .error fault
    | .ok a => match right.foresee kind? with
      | .error fault => .error fault
      | .ok b => op.foresee a b

/-- The kind of the value of a name. -/
def Chain.kind? (chain : Chain) (name : String) : Option ValueKind :=
  (chain.lookup? name).map Value.kind

/-- A result is as it was foreseen, unless it is a numeric fault. -/
def Fits (foreseen : Except Fault ValueKind) : Except Fault Value → Prop
  | .ok v => foreseen = .ok v.kind
  | .error fault => foreseen = .error fault ∨ fault.isNumeric = true

-----------------------------------------------------------------------------------------
-- Results are as foreseen
-----------------------------------------------------------------------------------------

namespace Operator

/-- Arithmetic gives a number or a numeric fault. -/
theorem numeric_fits (result : Except ArithmeticError Number)
    : Fits (.ok .number) (numeric result) := by
  cases result with
  | ok n => rfl
  | error cause => exact Or.inr rfl

/-- On numbers every operator ends as foreseen, a numeric fault apart. -/
theorem applyNumbers_fits (op : Operator) (a b : Number)
    : Fits (op.foresee .number .number) (op.applyNumbers a b) := by
  cases op with
  | add => exact numeric_fits (a.add b)
  | sub => exact numeric_fits (a.sub b)
  | mul => exact numeric_fits (a.mul b)
  | div =>
      simp only [applyNumbers]
      split
      · exact Or.inr rfl
      · exact numeric_fits (a.div b)
  | greater | less | equal => rfl
  | and | or => exact Or.inl rfl

/-- On booleans every operator ends as foreseen. -/
theorem applyBooleans_fits (op : Operator) (a b : Bool)
    : Fits (op.foresee .boolean .boolean) (op.applyBooleans a b) := by
  cases op with
  | and | or | equal => rfl
  | add | sub | mul | div | greater | less => exact Or.inl rfl

/-- Operands of different kinds suit no operator. -/
theorem foresee_mixed (op : Operator)
    : op.foresee .boolean .number = .error op.mismatch
      ∧ op.foresee .number .boolean = .error op.mismatch := by
  cases op <;> exact ⟨rfl, rfl⟩

/-- The kinds of two operands foresee how their operator ends. -/
theorem apply_fits (op : Operator) (a b : Value)
    : Fits (op.foresee a.kind b.kind) (op.apply a b) := by
  cases a with
  | boolean x =>
      cases b with
      | boolean y => exact op.applyBooleans_fits x y
      | number n => exact Or.inl op.foresee_mixed.1
  | number m =>
      cases b with
      | boolean y => exact Or.inl op.foresee_mixed.2
      | number n => exact op.applyNumbers_fits m n

end Operator

/-- The kinds of names foresee how an expression ends. By induction over the expression, the left
operand before the right one. -/
theorem Chain.evaluate_fits (chain : Chain) (e : Expr)
    : Fits (e.foresee chain.kind?) (chain.evaluate e) := by
  induction e with
  | boolean b | number x => rfl
  | var name =>
      cases found : chain.lookup? name with
      | none =>
          simp only [Expr.foresee, kind?, evaluate, Expr.eval, lookup, found, Option.map_none]
          exact Or.inl rfl
      | some v =>
          simp only [Expr.foresee, kind?, evaluate, Expr.eval, lookup, found, Option.map_some]
          rfl
  | binary op left right first second =>
      simp only [Expr.foresee]
      cases leftValue : chain.evaluate left with
      | error fault =>
          rw [leftValue] at first
          rw [evaluate_left_fails leftValue]
          exact first.imp_left fun foreseen => by rw [foreseen]
      | ok a =>
          rw [leftValue] at first
          have foreseenLeft : left.foresee chain.kind? = .ok a.kind := first
          cases rightValue : chain.evaluate right with
          | error fault =>
              rw [rightValue] at second
              rw [evaluate_right_fails leftValue rightValue, foreseenLeft]
              exact second.imp_left fun foreseen => by rw [foreseen]
          | ok b =>
              rw [rightValue] at second
              have foreseenRight : right.foresee chain.kind? = .ok b.kind := second
              rw [evaluate_operands leftValue rightValue, foreseenLeft, foreseenRight]
              exact op.apply_fits a b

-----------------------------------------------------------------------------------------
-- What is foreseen
-----------------------------------------------------------------------------------------

namespace Expr

variable {kind? kind?' : String → Option ValueKind} {e : Expr}

/-- What is foreseen depends only on the kinds of the names in an expression. -/
theorem foresee_congr (same : ∀ name ∈ e.names, kind? name = kind?' name)
    : e.foresee kind? = e.foresee kind?' := by
  induction e with
  | boolean b | number x => rfl
  | var name =>
      have here : kind? name = kind?' name := same name List.mem_cons_self
      simp only [foresee, here]
  | binary op left right first second =>
      obtain ⟨inLeft, inRight⟩ := List.forall_mem_append.mp same
      simp only [foresee, first inLeft, second inRight]

/-- The operands are looked at from left to right. -/
theorem foresee_binary (kind? : String → Option ValueKind) (op : Operator) (left right : Expr)
    : (∃ fault,
        left.foresee kind? = .error fault
        ∧ (Expr.binary op left right).foresee kind? = .error fault)
      ∨ (∃ fault,
          right.foresee kind? = .error fault
          ∧ (Expr.binary op left right).foresee kind? = .error fault)
      ∨ ∃ a b, (Expr.binary op left right).foresee kind? = op.foresee a b := by
  simp only [foresee]
  cases left.foresee kind? with
  | error fault => exact Or.inl ⟨fault, rfl, rfl⟩
  | ok a =>
      cases right.foresee kind? with
      | error fault => exact Or.inr (Or.inl ⟨fault, rfl, rfl⟩)
      | ok b => exact Or.inr (Or.inr ⟨a, b, rfl⟩)

/-- The faults that can be foreseen: a name without a value, or an operator whose operands are not
what it requires. -/
theorem fault_of_foresee {fault : Fault} (fails : e.foresee kind? = .error fault)
    : (∃ name ∈ e.names, kind? name = none ∧ fault = .undefinedVariable name)
      ∨ ∃ op : Operator, fault = .operandType op.symbol op.requirement := by
  induction e with
  | boolean b | number x => cases fails
  | var name =>
      cases known : kind? name with
      | some kind =>
          simp only [foresee, known] at fails
          cases fails
      | none =>
          simp only [foresee, known] at fails
          cases fails
          exact Or.inl ⟨name, List.mem_cons_self, known, rfl⟩
  | binary op left right first second =>
      rcases foresee_binary kind? op left right with
        ⟨cause, inLeft, whole⟩ | ⟨cause, inRight, whole⟩ | ⟨a, b, whole⟩
      · obtain rfl : cause = fault := Except.error.inj (whole.symm.trans fails)
        refine (first inLeft).imp_left ?_
        rintro ⟨name, member, unbound⟩
        exact ⟨name, List.mem_append_left _ member, unbound⟩
      · obtain rfl : cause = fault := Except.error.inj (whole.symm.trans fails)
        refine (second inRight).imp_left ?_
        rintro ⟨name, member, unbound⟩
        exact ⟨name, List.mem_append_right _ member, unbound⟩
      · rw [whole, Operator.foresee] at fails
        split at fails
        · cases fails
        · cases fails
          exact Or.inr ⟨op, rfl⟩

/-- What an operation gives is of the kind that its operator gives. -/
theorem kind_of_foresee {op : Operator} {left right : Expr} {kind : ValueKind}
    (gives : (Expr.binary op left right).foresee kind? = .ok kind)
    : kind = op.resultKind := by
  rcases foresee_binary kind? op left right with
    ⟨cause, _, whole⟩ | ⟨cause, _, whole⟩ | ⟨a, b, whole⟩
  · cases whole.symm.trans gives
  · cases whole.symm.trans gives
  · rw [whole, Operator.foresee] at gives
    split at gives
    · cases gives
      rfl
    · cases gives

end Expr

/-- Without numeric faults, what is foreseen comes about. -/
theorem Fits.fault_or_value {foreseen : Except Fault ValueKind} {result : Except Fault Value}
    (fits : Fits foreseen result)
    (computes : ∀ fault, result = .error fault → fault.isNumeric = false)
    : (∃ fault, foreseen = .error fault ∧ result = .error fault)
      ∨ ∃ v, foreseen = .ok v.kind ∧ result = .ok v := by
  cases result with
  | ok v => exact Or.inr ⟨v, fits, rfl⟩
  | error fault =>
      rcases fits with foreseen | numeric
      · exact Or.inl ⟨fault, foreseen, rfl⟩
      · rw [computes fault rfl] at numeric
        cases numeric

/-- If two chains give every name of an expression values of one kind, or give it none, and neither
evaluation divides by zero or leaves the range of doubles, then both fail for the same name or for
the same operator and its requirement, or both have values of one kind: a boolean for comparisons
and logical operators, a number for arithmetic. -/
theorem Chain.evaluations_end_alike_by_kinds (e : Expr) (chain chain' : Chain)
    (alike : ∀ name ∈ e.names, chain.kind? name = chain'.kind? name)
    (computes : ∀ fault, chain.evaluate e = .error fault → fault.isNumeric = false)
    (computes' : ∀ fault, chain'.evaluate e = .error fault → fault.isNumeric = false)
    : (∃ name ∈ e.names,
        chain.lookup? name = none
        ∧ chain'.lookup? name = none
        ∧ chain.evaluate e = .error (.undefinedVariable name)
        ∧ chain'.evaluate e = .error (.undefinedVariable name))
      ∨ (∃ op : Operator,
          chain.evaluate e = .error (.operandType op.symbol op.requirement)
          ∧ chain'.evaluate e = .error (.operandType op.symbol op.requirement))
      ∨ ∃ v v',
          chain.evaluate e = .ok v
          ∧ chain'.evaluate e = .ok v'
          ∧ v.kind = v'.kind
          ∧ ∀ op left right, e = .binary op left right → v.kind = op.resultKind := by
  have same := Expr.foresee_congr alike
  rcases (chain.evaluate_fits e).fault_or_value computes with
    ⟨fault, foreseen, fails⟩ | ⟨v, foreseen, gives⟩
  · rcases (chain'.evaluate_fits e).fault_or_value computes' with
      ⟨fault', foreseen', fails'⟩ | ⟨v', foreseen', _⟩
    · obtain rfl : fault = fault' :=
        Except.error.inj (foreseen.symm.trans (same.trans foreseen'))
      rcases Expr.fault_of_foresee foreseen with ⟨name, member, unbound, rfl⟩ | ⟨op, rfl⟩
      · have unbound' : chain'.kind? name = none := (alike name member).symm.trans unbound
        exact Or.inl ⟨name, member, Option.map_eq_none_iff.mp unbound,
          Option.map_eq_none_iff.mp unbound', fails, fails'⟩
      · exact Or.inr (Or.inl ⟨op, fails, fails'⟩)
    · cases foreseen.symm.trans (same.trans foreseen')
  · rcases (chain'.evaluate_fits e).fault_or_value computes' with
      ⟨fault', foreseen', _⟩ | ⟨v', foreseen', gives'⟩
    · cases foreseen.symm.trans (same.trans foreseen')
    · have kinds : v.kind = v'.kind :=
        Except.ok.inj (foreseen.symm.trans (same.trans foreseen'))
      refine Or.inr (Or.inr ⟨v, v', gives, gives', kinds, ?_⟩)
      rintro op left right rfl
      exact Expr.kind_of_foresee foreseen

/-- The names have an integer beyond all doubles on one side and a NaN on the other; the sum with a
boolean fails on both. -/
theorem Chain.evaluations_end_alike_by_kinds_sum
    : let e : Expr :=
        .binary .and (.binary .less (.var "x") (.number .nan)) (.binary .add (.var "x") (.var "b"))
      let chain : Chain :=
        .root (.ofList [("x", .number (.int (Nat.pow 10 400))), ("b", .boolean true)])
      let chain' : Chain :=
        .ofLevels [.ofList [("x", .number (.double .nan))], .ofList [("b", .boolean false)]]
      (∀ name ∈ e.names, chain.kind? name = chain'.kind? name)
      ∧ chain.evaluate e = .error (.operandType "+" .numbers)
      ∧ chain'.evaluate e = .error (.operandType "+" .numbers) := by
  intro e chain chain'
  have alike : ∀ name ∈ e.names, chain.kind? name = chain'.kind? name := by decide
  have fails : chain.evaluate e = .error (.operandType "+" .numbers) := by rfl
  have computes : ∀ fault, chain.evaluate e = .error fault → fault.isNumeric = false := by
    intro fault failed
    cases fails.symm.trans failed
    rfl
  have computes' : ∀ fault, chain'.evaluate e = .error fault → fault.isNumeric = false := by
    intro fault failed
    have fails' : chain'.evaluate e = .error (.operandType "+" .numbers) := by rfl
    cases fails'.symm.trans failed
    rfl
  rcases Chain.evaluations_end_alike_by_kinds e chain chain' alike computes computes' with
    ⟨name, _, _, _, failed, _⟩ | ⟨op, failed, failed'⟩ | ⟨v, _, gave, _⟩
  · cases fails.symm.trans failed
  · exact ⟨alike, fails, failed'.trans (failed.symm.trans fails)⟩
  · cases fails.symm.trans gave

end ScopedWhile
