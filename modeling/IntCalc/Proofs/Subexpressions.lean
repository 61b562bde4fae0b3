/-
**The expressions inside an expression.**

`Expr.subexpressions` lists an expression and all expressions in it in the order in which their
operators are applied: operands from left to right, and an expression behind its operands
(`subexpressions_eq`). What holds of all of them holds everywhere in the expression (`Everywhere`),
which is to hold everywhere in its operands and of the expression itself (`everywhere_iff`).
-/
import IntCalc.Expr.Basic

namespace IntCalc.Expr

/-- The expressions from which an expression is put together, in the order of the line. -/
def operands : Expr → List Expr
  | number _ => []
  | unary _ operand => [operand]
  | binary left _ right => [left, right]
  | paren _ inner _ => [inner]

/-- The token of the operator that an expression applies, if it applies one. -/
def operator? : Expr → Option Token
  | unary operator _ => some operator
  | binary _ operator _ => some operator
  | number _ | paren _ _ _ => none

/-- An expression and all expressions in it, each behind its operands. -/
def subexpressions : Expr → List Expr
  | number literal => [number literal]
  | unary operator operand => operand.subexpressions ++ [unary operator operand]
  | binary left operator right =>
    left.subexpressions ++ right.subexpressions ++ [binary left operator right]
  | paren opening inner closing => inner.subexpressions ++ [paren opening inner closing]

theorem subexpressions_eq (expr : Expr) :
    expr.subexpressions = expr.operands.flatMap subexpressions ++ [expr] := by
  cases expr <;> simp [subexpressions, operands]

/-- What holds of an expression as soon as it holds of its operands holds of every expression. -/
theorem induction_on_operands {holds : Expr → Prop}
    (step : ∀ expr, (∀ operand ∈ expr.operands, holds operand) → holds expr) (expr : Expr) :
    holds expr := by
  induction expr with
  | number literal => exact step _ (List.forall_mem_nil _)
  | unary operator operand ih => exact step _ (List.forall_mem_singleton.mpr ih)
  | binary left operator right ihLeft ihRight =>
    exact step _ (List.forall_mem_cons.mpr ⟨ihLeft, List.forall_mem_singleton.mpr ihRight⟩)
  | paren opening inner closing ih => exact step _ (List.forall_mem_singleton.mpr ih)

/-- Something holds of an expression and of all expressions in it. -/
def Everywhere (holds : Expr → Prop) (expr : Expr) : Prop := ∀ sub ∈ expr.subexpressions, holds sub

instance (holds : Expr → Prop) [DecidablePred holds] : DecidablePred (Everywhere holds) :=
  fun expr => inferInstanceAs (Decidable (∀ sub ∈ expr.subexpressions, holds sub))

variable {holds holds' : Expr → Prop} {expr : Expr}

theorem everywhere_iff :
    expr.Everywhere holds ↔ (∀ operand ∈ expr.operands, operand.Everywhere holds) ∧ holds expr := by
  rw [Everywhere, subexpressions_eq, List.forall_mem_append, List.forall_mem_singleton,
    List.forall_mem_flatMap]
  rfl

theorem Everywhere.self (everywhere : expr.Everywhere holds) : holds expr :=
  (everywhere_iff.mp everywhere).2

theorem Everywhere.mono (everywhere : expr.Everywhere holds)
    (implies : ∀ sub, holds sub → holds' sub) : expr.Everywhere holds' :=
  fun sub member => implies sub (everywhere sub member)

/-- What holds of all expressions in an expression holds of all expressions in each of them. -/
theorem Everywhere.of_mem {sub : Expr} (everywhere : expr.Everywhere holds)
    (inside : sub ∈ expr.subexpressions) : sub.Everywhere holds := by
  induction expr using induction_on_operands with
  | step expr ih =>
    rw [subexpressions_eq] at inside
    rcases List.mem_append.mp inside with below | self
    · obtain ⟨operand, among, below⟩ := List.mem_flatMap.mp below
      exact ih operand among ((everywhere_iff.mp everywhere).1 operand among) below
    · rw [List.mem_singleton.mp self]
      exact everywhere

end IntCalc.Expr
