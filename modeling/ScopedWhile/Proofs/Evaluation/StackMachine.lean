import ScopedWhile.Evaluation.Expr

/-!
Evaluation as postfix code on a stack of values. Code has one instruction for each subexpression, in
post-order, and knows of no operator that skips an operand. Main statement: an expression has the
value that its code leaves on the stack, or the fault of the first instruction that fails, which
belongs to the first subexpression in post-order that has no value.
-/

namespace ScopedWhile

inductive Instruction where
  | push (value : Value)
  | load (name : String)
  /-- Takes the right operand off the stack, then the left one, and pushes the result. -/
  | apply (op : Operator)
deriving DecidableEq

/-- What stops the stack machine. -/
inductive StackError where
  /-- An operator finds fewer than two values. -/
  | underflow
  | fault (cause : Fault)
deriving DecidableEq

namespace Instruction

/-- The stack with a result on top, if there is one. -/
def pushed (result : Except Fault Value) (stack : List Value) : Except StackError (List Value) :=
  match result with
  | .ok v => .ok (v :: stack)
  | .error fault => .error (.fault fault)

/-- What an instruction makes of a stack, the top of which comes first. -/
def step (chain : Chain) : Instruction → List Value → Except StackError (List Value)
  | .push v, stack => .ok (v :: stack)
  | .load name, stack => pushed (chain.lookup name) stack
  | .apply op, b :: a :: stack => pushed (op.apply a b) stack
  | .apply _, _ => .error .underflow

/-- Executes instructions one after another up to the first that fails. -/
def run (chain : Chain) : List Instruction → List Value → Except StackError (List Value)
  | [], stack => .ok stack
  | instruction :: rest, stack => (instruction.step chain stack).bind (run chain rest)

end Instruction

namespace Expr

/-- Postfix code: the operands from left to right, then the operator. -/
def code : Expr → List Instruction
  | .boolean b => [.push (.boolean b)]
  | .number x => [.push (.number (.double x))]
  | .var name => [.load name]
  | .binary op left right => left.code ++ right.code ++ [.apply op]

/-- All occurrences of subexpressions, each after those inside of it; the last is the expression
itself. -/
def postorder : Expr → List Expr
  | .binary op left right => left.postorder ++ right.postorder ++ [.binary op left right]
  | e => [e]

/-- The instruction that computes an expression once its operands are on the stack. -/
def instruction : Expr → Instruction
  | .boolean b => .push (.boolean b)
  | .number x => .push (.number (.double x))
  | .var name => .load name
  | .binary op _ _ => .apply op

/-- The first subexpression in post-order that has no value. Those before it have one, and the code
of the whole, started with the given stack, stops at its instruction. -/
structure FirstFailure (chain : Chain) (stack : List Value) (e : Expr) (fault : Fault)
    (before : List Expr) (failing : Expr) (after : List Expr) : Prop where
  order : e.postorder = before ++ failing :: after
  earlier : ∀ sub ∈ before, ∃ v, chain.evaluate sub = .ok v
  fails : chain.evaluate failing = .error fault
  stops
    : ∃ reached,
        Instruction.run chain (before.map instruction) stack = .ok reached
        ∧ failing.instruction.step chain reached = .error (.fault fault)

/-- The code of an expression has one instruction for each part, in postorder. -/
theorem code_eq_postorder (e : Expr)
    : e.code = e.postorder.map instruction := by
  induction e with
  | boolean b | number x | var name => rfl
  | binary op left right first second =>
      simp only [code, postorder, List.map_append, ← first, ← second]
      rfl

/-- An expression is among its own parts. -/
theorem mem_postorder_self (e : Expr)
    : e ∈ e.postorder := by
  cases e <;> simp [postorder]

end Expr

-----------------------------------------------------------------------------------------
-- Code computes what evaluation does
-----------------------------------------------------------------------------------------

/-- Code in two pieces runs one after the other, unless the first fails. -/
theorem Instruction.run_append (chain : Chain) (first later : List Instruction)
    (stack : List Value)
    : run chain (first ++ later) stack = (run chain first stack).bind (run chain later) := by
  induction first generalizing stack with
  | nil => rfl
  | cons instruction rest ih =>
      simp only [List.cons_append, run]
      cases instruction.step chain stack with
      | ok next => exact ih next
      | error cause => rfl

/-- The code of an expression pushes its value on any stack, or fails as it does. By induction over
the expression. -/
theorem Expr.run_code (chain : Chain) (e : Expr) (stack : List Value)
    : Instruction.run chain e.code stack = Instruction.pushed (chain.evaluate e) stack := by
  induction e generalizing stack with
  | boolean b | number x => rfl
  | var name =>
      have stepped : Instruction.run chain (code (.var name)) stack
          = (Instruction.pushed (chain.lookup name) stack).bind .ok := rfl
      rw [stepped]
      change _ = Instruction.pushed (chain.lookup name) stack
      cases Instruction.pushed (chain.lookup name) stack <;> rfl
  | binary op left right first second =>
      simp only [code, Instruction.run_append, first]
      cases leftValue : chain.evaluate left with
      | error fault =>
          rw [Chain.evaluate_left_fails leftValue]
          rfl
      | ok a =>
          have pushedLeft
              : (Instruction.pushed (.ok a) stack).bind (Instruction.run chain right.code)
                = Instruction.pushed (chain.evaluate right) (a :: stack) := second (a :: stack)
          rw [pushedLeft]
          cases rightValue : chain.evaluate right with
          | error fault =>
              rw [Chain.evaluate_right_fails leftValue rightValue]
              rfl
          | ok b =>
              rw [Chain.evaluate_operands leftValue rightValue]
              change (Instruction.pushed (op.apply a b) stack).bind .ok = _
              cases Instruction.pushed (op.apply a b) stack <;> rfl

/-- No operator skips an operand. -/
theorem Expr.values_of_postorder {chain : Chain} {e : Expr} {v : Value}
    (gives : chain.evaluate e = .ok v)
    : ∀ sub ∈ e.postorder, ∃ w, chain.evaluate sub = .ok w := by
  induction e generalizing v with
  | boolean b | number x | var name => exact List.forall_mem_singleton.mpr ⟨v, gives⟩
  | binary op left right first second =>
      cases leftValue : chain.evaluate left with
      | error fault =>
          rw [Chain.evaluate_left_fails leftValue] at gives
          cases gives
      | ok a =>
          cases rightValue : chain.evaluate right with
          | error fault =>
              rw [Chain.evaluate_right_fails leftValue rightValue] at gives
              cases gives
          | ok b =>
              simp only [postorder, List.forall_mem_append, List.forall_mem_singleton]
              exact ⟨⟨first leftValue, second rightValue⟩, v, gives⟩

-----------------------------------------------------------------------------------------
-- The first failure
-----------------------------------------------------------------------------------------

namespace Expr.FirstFailure

variable {chain : Chain} {stack : List Value} {fault : Fault} {op : Operator} {left right : Expr}
  {before after : List Expr} {failing : Expr}

/-- An expression that fails although nothing inside of it does. -/
theorem here {e : Expr} {inside : List Expr} (reached : List Value)
    (order : e.postorder = inside ++ [e])
    (values : ∀ sub ∈ inside, ∃ v, chain.evaluate sub = .ok v)
    (fails : chain.evaluate e = .error fault)
    (runs : Instruction.run chain (inside.map instruction) stack = .ok reached)
    (stepped : e.instruction.step chain reached = Instruction.pushed (chain.evaluate e) stack)
    : FirstFailure chain stack e fault inside e [] where
  order := order
  earlier := values
  fails := fails
  stops := by
    refine ⟨reached, runs, ?_⟩
    rw [stepped, fails]
    rfl

/-- A first failure in the left operand is one of the whole operation. -/
theorem inLeft (failure : FirstFailure chain stack left fault before failing after)
    : FirstFailure chain stack (.binary op left right) fault before failing
        (after ++ right.postorder ++ [.binary op left right]) where
  order := by
    simp only [postorder, failure.order, List.append_assoc, List.cons_append]
  earlier := failure.earlier
  fails := failure.fails
  stops := failure.stops

/-- A first failure in the right operand is one of the whole operation, after all of the left one.
-/
theorem inRight {a : Value} (gives : chain.evaluate left = .ok a)
    (failure : FirstFailure chain (a :: stack) right fault before failing after)
    : FirstFailure chain stack (.binary op left right) fault (left.postorder ++ before) failing
        (after ++ [.binary op left right]) where
  order := by
    simp only [postorder, failure.order, List.append_assoc, List.cons_append]
  earlier := List.forall_mem_append.mpr ⟨values_of_postorder gives, failure.earlier⟩
  fails := failure.fails
  stops := by
    obtain ⟨reached, runs, stepped⟩ := failure.stops
    refine ⟨reached, ?_, stepped⟩
    rw [List.map_append, Instruction.run_append, ← code_eq_postorder, run_code, gives]
    exact runs

/-- Code that reaches the instruction of a failure stops there. -/
theorem run_code_eq {e : Expr} (failure : FirstFailure chain stack e fault before failing after)
    : Instruction.run chain e.code stack = .error (.fault fault) := by
  obtain ⟨reached, runs, stepped⟩ := failure.stops
  rw [code_eq_postorder, failure.order, List.map_append, Instruction.run_append, runs]
  change (failing.instruction.step chain reached).bind _ = _
  rw [stepped]
  rfl

end Expr.FirstFailure

/-- An expression that fails has a first part that does. By induction over the expression, in the
order of evaluation. -/
theorem Expr.exists_firstFailure {chain : Chain} {e : Expr} {fault : Fault}
    (fails : chain.evaluate e = .error fault) (stack : List Value)
    : ∃ before failing after, FirstFailure chain stack e fault before failing after := by
  induction e generalizing stack with
  | boolean b | number x => cases fails
  | var name => exact ⟨[], _, [], .here stack rfl nofun fails rfl rfl⟩
  | binary op left right first second =>
      cases leftValue : chain.evaluate left with
      | error cause =>
          rw [Chain.evaluate_left_fails leftValue] at fails
          obtain ⟨before, failing, after, failure⟩ := first (leftValue.trans fails) stack
          exact ⟨_, _, _, failure.inLeft⟩
      | ok a =>
          cases rightValue : chain.evaluate right with
          | error cause =>
              rw [Chain.evaluate_right_fails leftValue rightValue] at fails
              obtain ⟨before, failing, after, failure⟩ :=
                second (rightValue.trans fails) (a :: stack)
              exact ⟨_, _, _, failure.inRight leftValue⟩
          | ok b =>
              refine ⟨left.postorder ++ right.postorder, _, [],
                .here (b :: a :: stack) rfl ?_ fails ?_ ?_⟩
              · exact List.forall_mem_append.mpr
                  ⟨values_of_postorder leftValue, values_of_postorder rightValue⟩
              · rw [List.map_append, Instruction.run_append, ← code_eq_postorder,
                  ← code_eq_postorder, run_code, leftValue]
                change Instruction.run chain right.code (a :: stack) = _
                rw [run_code, rightValue]
                rfl
              · rw [Chain.evaluate_operands leftValue rightValue]
                rfl

/-- On every chain of levels, an expression has the value that its postfix code leaves on top of any
stack, or else the fault at which the code stops. It has a value only if all of its subexpressions
have one, and otherwise its fault is that of the first of them in post-order that has none, at whose
instruction the code stops, all earlier ones having been executed. -/
theorem Chain.evaluation_runs_postfix_code (chain : Chain) (e : Expr)
    : (∀ stack, Instruction.run chain e.code stack = Instruction.pushed (chain.evaluate e) stack)
      ∧ ((∃ v, chain.evaluate e = .ok v) ↔ ∀ sub ∈ e.postorder, ∃ v, chain.evaluate sub = .ok v)
      ∧ e.code = e.postorder.map Expr.instruction
      ∧ (∀ fault,
          chain.evaluate e = .error fault
          ↔ ∃ before failing after,
              Expr.FirstFailure chain [] e fault before failing after) := by
  refine ⟨e.run_code chain, ⟨?_, ?_⟩, e.code_eq_postorder, fun fault => ⟨?_, ?_⟩⟩
  · rintro ⟨v, gives⟩
    exact Expr.values_of_postorder gives
  · exact fun values => values e e.mem_postorder_self
  · exact fun fails => Expr.exists_firstFailure fails []
  · rintro ⟨before, failing, after, failure⟩
    have stopped := failure.run_code_eq
    rw [e.run_code chain] at stopped
    cases result : chain.evaluate e with
    | ok v =>
        rw [result] at stopped
        cases stopped
    | error cause =>
        rw [result] at stopped
        cases stopped
        rfl

/-- Neither `false` on the left nor the unbound name on the right keeps the sum from failing
first. -/
theorem Chain.evaluation_runs_postfix_code_unskipped
    : let chain : Chain := .root (.ofList [("x", .number (.int 1))])
      let sum : Expr := .binary .add (.var "x") (.boolean true)
      let e : Expr := .binary .or (.binary .and (.boolean false) sum) (.var "y")
      chain.evaluate e = .error (.operandType "+" .numbers)
      ∧ Instruction.run chain e.code [] = .error (.fault (.operandType "+" .numbers))
      ∧ ¬ (∀ sub ∈ e.postorder, ∃ v, chain.evaluate sub = .ok v)
      ∧ ∃ before failing after,
          Expr.FirstFailure chain [] e (.operandType "+" .numbers) before failing after := by
  intro chain sum e
  obtain ⟨runs, values, _, failures⟩ := Chain.evaluation_runs_postfix_code chain e
  have fails : chain.evaluate e = .error (.operandType "+" .numbers) := rfl
  refine ⟨fails, (runs []).trans (congrArg (Instruction.pushed · []) fails), ?_,
    (failures _).mp fails⟩
  intro all
  obtain ⟨v, gives⟩ := values.mpr all
  cases fails.symm.trans gives

end ScopedWhile
