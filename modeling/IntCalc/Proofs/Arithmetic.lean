/-
**The four operators of arithmetic.**

An operator is applied to the exact integers, and its result is a value if it is in range; what the
token of an operator does to two operands is just that, with its own place added to a fault
(`applyBinary_token`). A divisor of zero comes before everything else.
-/
import IntCalc.Expr.Eval
import IntCalc.Parser.Precedence
import IntCalc.Proofs.Scan

namespace IntCalc

/-- A binary operator of arithmetic. -/
inductive Operator where
  | add
  | sub
  | mul
  | div
  deriving DecidableEq, Repr

/-- The outcome of an operation with an exact result: a value if the result is in range. -/
def fitting (exact : Int) : Except EvalFault Value :=
  if least : -2147483648 ≤ exact then
    if greatest : exact ≤ 2147483647 then .ok ⟨exact, least, greatest⟩ else .error .overflow
  else
    .error .overflow

/-- A fault that is given a place is still the fault. -/
theorem mapError_value_located (outcome : Except EvalFault Value) (span : Span) :
    (outcome.mapError (Located.mk · span)).mapError Located.value = outcome := by
  cases outcome <;> rfl

namespace Operator

def symbol : Operator → Char
  | add => '+'
  | sub => '-'
  | mul => '*'
  | div => '/'

/-- The outcome of an operator between two operands. Quotients are truncated toward zero. -/
def apply : Operator → Value → Value → Except EvalFault Value
  | add, left, right => fitting (left.toInt + right.toInt)
  | sub, left, right => fitting (left.toInt - right.toInt)
  | mul, left, right => fitting (left.toInt * right.toInt)
  | div, left, right =>
    if right.toInt = 0 then .error .divisionByZero else fitting (left.toInt.tdiv right.toInt)

/-- The outcome of an operator that stands at a position, which a fault names. -/
def applyAt (operator : Operator) (position : Nat) (left right : Value) : Evaluation :=
  (operator.apply left right).mapError (Located.mk · ⟨position, 1⟩)

def token (operator : Operator) (position : Nat) : Token :=
  .ofSymbol operator.symbol position

theorem symbol_mem (operator : Operator) :
    operator.symbol ∈ ['+', '-', '*', '/', '(', ')'] := by
  cases operator <;> decide

theorem isBlank_symbol (operator : Operator) : Text.isBlank operator.symbol = false := by
  cases operator <;> decide

theorem isDigit_symbol (operator : Operator) : operator.symbol.isDigit = false := by
  cases operator <;> decide

/-- Every operator can stand between two operands. -/
theorem ofBinary?_token (operator : Operator) (position : Nat) :
    ∃ precedence, Precedence.ofBinary? (operator.token position).kind = some precedence := by
  cases operator
  · exact ⟨.sum, rfl⟩
  · exact ⟨.sum, rfl⟩
  · exact ⟨.product, rfl⟩
  · exact ⟨.product, rfl⟩

theorem span_token (operator : Operator) (position : Nat) :
    (operator.token position).span = ⟨position, 1⟩ := by
  have size : operator.symbol.utf8Size = 1 := by cases operator <;> rfl
  simp [Token.span, token, Token.ofSymbol, size]

end Operator

namespace Token

/-- A checked result is a fitting one, with the place of the operator. -/
theorem checked_ofInt? (operator : Token) (exact : Int) :
    operator.checked (Value.ofInt? exact) = (fitting exact).mapError (Located.mk · operator.span) := by
  unfold fitting Value.ofInt?
  by_cases least : -2147483648 ≤ exact
  · by_cases greatest : exact ≤ 2147483647
    · simp only [least, greatest, and_self, dite_true]
      rfl
    · simp only [least, greatest, and_false, dite_true, dite_false]
      rfl
  · simp only [least, false_and, dite_false]
    rfl

/-- **What the token of an operator does** is what the operator does, at the place of the token. -/
theorem applyBinary_token (operator : Operator) (position : Nat) (left right : Value) :
    (operator.token position).applyBinary left right = operator.applyAt position left right := by
  rw [Operator.applyAt, ← operator.span_token position]
  cases operator with
  | add | sub | mul => exact checked_ofInt? ..
  | div =>
    unfold applyBinary Operator.apply
    by_cases zero : right.toInt = 0
    · simp only [if_pos zero]
      rfl
    · simp only [if_neg zero, Value.div?]
      exact checked_ofInt? ..

end Token

end IntCalc
