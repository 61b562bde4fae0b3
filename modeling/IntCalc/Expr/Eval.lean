/-
**Evaluation.**

An evaluation gives a value, or the first operator without a result. The operators of one chain, as
in `1 - 2 + 3`, do not nest: `Expr.evaluateChain` follows the left operands down to the first
operand of the chain and gathers the operators on the way, each with the outcome of its right
operand; then it applies them in the order of the line. So only signs, parentheses and right
operands nest its calls.

* `Expr.evaluateChain_eq_bind`: what is gathered comes after the outcome of the expression itself;
* `Expr.evaluate_binary`: the outcome of an operator is that of the left operand, then that of the
  right one, then its own.
-/
import IntCalc.Expr.Basic
import IntCalc.Fault

namespace IntCalc

/-- The outcome of an evaluation: a value, or the operator that has no result and why. -/
abbrev Evaluation := Except (Located EvalFault) Value

/-! ### Operators -/

namespace Token

/-- The outcome where an operator has no result. -/
def failing (operator : Token) (fault : EvalFault) : Evaluation := .error ⟨fault, operator.span⟩

/-- The outcome where an operator has the given result, or none that is in range. -/
def checked (operator : Token) : Option Value → Evaluation
  | some value => .ok value
  | none => operator.failing .overflow

def applySign (operator : Token) (operand : Value) : Evaluation :=
  match operator.kind with
  | .plus => .ok operand
  | .minus => operator.checked operand.neg?
  | kind => operator.failing (.badOperator kind)

/-- The outcome of an operator between two operands. -/
def applyBinary (operator : Token) (left right : Value) : Evaluation :=
  match operator.kind with
  | .plus => operator.checked (left.add? right)
  | .minus => operator.checked (left.sub? right)
  | .star => operator.checked (left.mul? right)
  | .slash =>
    if right.toInt = 0 then operator.failing .divisionByZero
    else operator.checked (left.div? right)
  | kind => operator.failing (.badOperator kind)

end Token

namespace Expr

/-! ### Chains -/

/-- The outcome of operators applied one after the other to a first operand, each with the outcome
of its right operand. -/
def applyLinks (first : Value) (links : List (Token × Evaluation)) : Evaluation :=
  links.foldlM (fun left link => do link.1.applyBinary left (← link.2)) first

/-- The outcome of an expression with operators still to be applied to it. A numeral without a value
counts as zero. -/
def evaluateChain : Expr → List (Token × Evaluation) → Evaluation
  | number literal, links => applyLinks (literal.value.getD .zero) links
  | unary operator operand, links => do
    applyLinks (← operator.applySign (← operand.evaluateChain [])) links
  | binary left operator right, links =>
    left.evaluateChain ((operator, right.evaluateChain []) :: links)
  | paren _ inner _, links => do applyLinks (← inner.evaluateChain []) links

/-- The outcome of an expression. -/
def evaluate (expr : Expr) : Evaluation := expr.evaluateChain []

@[simp]
theorem applyLinks_nil (first : Value) : applyLinks first [] = pure first := rfl

theorem applyLinks_cons (first : Value) (operator : Token) (right : Evaluation)
    (links : List (Token × Evaluation)) :
    applyLinks first ((operator, right) :: links) = (do
      let operand ← right
      let value ← operator.applyBinary first operand
      applyLinks value links) := by
  simp [applyLinks, List.foldlM_cons]

theorem evaluateChain_eq_bind (expr : Expr) (links : List (Token × Evaluation)) :
    expr.evaluateChain links = (do applyLinks (← expr.evaluate) links) := by
  induction expr generalizing links with
  | number literal => rfl
  | unary operator operand _ => simp [evaluate, evaluateChain]
  | binary left operator right leftChain _ =>
    rw [evaluate, evaluateChain, evaluateChain, leftChain, leftChain [_]]
    simp [applyLinks_cons]
  | paren opening inner closing _ => simp [evaluate, evaluateChain]

/-! ### Outcomes by form -/

theorem evaluate_number (literal : Token) :
    (number literal).evaluate = pure (literal.value.getD .zero) := rfl

theorem evaluate_unary (operator : Token) (operand : Expr) :
    (unary operator operand).evaluate = (do operator.applySign (← operand.evaluate)) := by
  simp [evaluate, evaluateChain]

theorem evaluate_binary (left : Expr) (operator : Token) (right : Expr) :
    (binary left operator right).evaluate = (do
      let first ← left.evaluate
      let second ← right.evaluate
      operator.applyBinary first second) := by
  rw [evaluate, evaluateChain, evaluateChain_eq_bind]
  simp [applyLinks_cons, evaluate]

theorem evaluate_paren (opening : Token) (inner : Expr) (closing : Token) :
    (paren opening inner closing).evaluate = inner.evaluate := by
  simp [evaluate, evaluateChain]

end Expr

end IntCalc
