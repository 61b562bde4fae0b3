/-
**The loop over a chain, and plain recursion.**

An evaluation does not recurse on the left operands of a chain. It goes down to the first operand,
keeps the operators on the way with their right operands (`Expr.spine`), and then applies them in
the order of the line: the operator that was kept last is applied first (`evaluate_eq_loop`).

`Expr.meaning` is the recursion on the form of an expression, in which every operator is applied to
the meanings of its operands. Both stop at the first fault, and they agree on every expression, with
whatever tokens it was built (`evaluate_eq_meaning`). What carries over from one operator of a chain
to the next is that the operators kept so far are still to be applied to the outcome of what is left
(`evaluateChain_eq_bind`).
-/
import IntCalc.Expr.Eval

namespace IntCalc.Expr

/-! ### The loop -/

/-- The first operand of a chain, and the operators behind it with their right operands, in front of
those that have been kept already. -/
def spine : Expr → List (Token × Expr) → Expr × List (Token × Expr)
  | binary left operator right, kept => left.spine ((operator, right) :: kept)
  | first, kept => (first, kept)

/-- One round of the loop: the right operand is evaluated, then the operator is applied. -/
def fold (left : Value) (link : Token × Expr) : Evaluation := do
  let right ← link.2.evaluate
  link.1.applyBinary left right

/-- The way down a chain ends at an operand that is no chain itself. -/
theorem kind_spine_ne_binary (expr : Expr) (kept : List (Token × Expr)) :
    (expr.spine kept).1.kind ≠ .binary := by
  induction expr generalizing kept with
  | number literal | unary operator operand _ | paren opening inner closing _ =>
    intro equal
    cases equal
  | binary left operator right ihLeft _ => exact ihLeft _

theorem applyLinks_map_evaluate (first : Value) (kept : List (Token × Expr)) :
    applyLinks first (kept.map fun link => (link.1, link.2.evaluate)) = kept.foldlM fold first := by
  rw [applyLinks, List.foldlM_map]
  rfl

/-- **An evaluation is the loop over the chain**: the first operand, which is no chain itself, is
evaluated, then the operators are applied one after the other. -/
theorem evaluate_eq_loop (expr : Expr) :
    (expr.spine []).1.kind ≠ .binary ∧
      expr.evaluate = (do
        let first ← (expr.spine []).1.evaluate
        (expr.spine []).2.foldlM fold first) := by
  refine ⟨expr.kind_spine_ne_binary [], ?_⟩
  suffices ∀ kept : List (Token × Expr),
      expr.evaluateChain (kept.map fun link => (link.1, link.2.evaluate)) = (do
        let first ← (expr.spine kept).1.evaluate
        (expr.spine kept).2.foldlM fold first) from this []
  induction expr with
  | number literal | unary operator operand _ | paren opening inner closing _ =>
    intro kept
    rw [evaluateChain_eq_bind]
    simp only [applyLinks_map_evaluate, spine]
  | binary left operator right ihLeft _ =>
    exact fun kept => ihLeft ((operator, right) :: kept)

/-! ### Plain recursion -/

/-- The outcome of an expression by recursion on its form: the left operand comes first, then the
right one, then the operator. -/
def meaning : Expr → Evaluation
  | number literal => .ok (literal.value.getD .zero)
  | unary operator operand => do operator.applySign (← operand.meaning)
  | binary left operator right => do
    let first ← left.meaning
    let second ← right.meaning
    operator.applyBinary first second
  | paren _ inner _ => inner.meaning

/-- **The loop and plain recursion agree** on every expression: they give the same value, or the
same fault at the same place. -/
theorem evaluate_eq_meaning (expr : Expr) : expr.evaluate = expr.meaning := by
  induction expr with
  | number literal => rfl
  | unary operator operand ih => rw [evaluate_unary, ih, meaning]
  | binary left operator right ihLeft ihRight => rw [evaluate_binary, ihLeft, ihRight, meaning]
  | paren opening inner closing ih => rw [evaluate_paren, ih, meaning]

end IntCalc.Expr
