/-
**How many calls an evaluation nests.**

An evaluation calls itself on the operand of a sign, on what stands in parentheses, and for a chain
on its first operand and on its right operands (`Expr.called`). The chain itself is one call,
however long it is, since a loop goes along it. `Expr.calls` is the number of calls that are open at
once at most: one more than the largest number for the expressions that are called (`calls_eq`).

`Expr.evaluateWithin` is the evaluation with only so many calls to nest, which gives up when they
run out. With `calls` of them it never does, and it has the outcome of the evaluation
(`evaluateWithin_eq`). Left operands cost nothing, so the calls are bounded by the nesting of the
expression (`calls_le_nesting`): a level of nesting takes at most two, one for the sign, the
parentheses or the right operand, and one for a chain that starts there.
-/
import IntCalc.Proofs.Evaluation.Recursion
import IntCalc.Proofs.Grammar

namespace IntCalc.Expr

/-! ### Calls -/

/-- The expressions on which the evaluation of an expression calls itself. -/
def called : Expr → List Expr
  | number _ => []
  | unary _ operand => [operand]
  | binary left operator right =>
    ((binary left operator right).spine []).1 ::
      ((binary left operator right).spine []).2.map Prod.snd
  | paren _ inner _ => [inner]

mutual

/-- The number of calls that the evaluation of an expression nests at most, with its own. -/
def calls : Expr → Nat
  | number _ => 1
  | unary _ operand => 1 + operand.calls
  | binary left _ right => 1 + max left.chainCalls right.calls
  | paren _ inner _ => 1 + inner.calls

/-- The largest number of calls that an operand of a chain nests. An expression that is no chain
counts as the only operand. -/
def chainCalls : Expr → Nat
  | number _ => 1
  | unary _ operand => 1 + operand.calls
  | binary left _ right => max left.chainCalls right.calls
  | paren _ inner _ => 1 + inner.calls

end

/-- The largest number of calls among some expressions. -/
def mostCalls (exprs : List Expr) : Nat := exprs.foldr (fun expr most => max expr.calls most) 0

theorem calls_le_mostCalls {exprs : List Expr} {expr : Expr} (member : expr ∈ exprs) :
    expr.calls ≤ mostCalls exprs := by
  induction exprs with
  | nil => cases member
  | cons first others ih =>
    rcases List.mem_cons.mp member with rfl | later
    · exact Nat.le_max_left ..
    · exact Nat.le_trans (ih later) (Nat.le_max_right ..)

/-- The operands of a chain are those that its spine lists. -/
theorem mostCalls_spine (expr : Expr) (kept : List (Token × Expr)) :
    mostCalls ((expr.spine kept).1 :: (expr.spine kept).2.map Prod.snd) =
      max expr.chainCalls (mostCalls (kept.map Prod.snd)) := by
  induction expr generalizing kept with
  | number literal | unary operator operand _ | paren opening inner closing _ =>
    simp only [spine, mostCalls, List.foldr_cons, chainCalls, calls]
  | binary left operator right ihLeft _ =>
    rw [spine, ihLeft, List.map_cons, chainCalls, Nat.max_assoc]
    rfl

/-- **The calls of an expression** are its own and the most of those that it calls. -/
theorem calls_eq (expr : Expr) : expr.calls = 1 + mostCalls expr.called := by
  cases expr with
  | number literal => simp only [calls, called, mostCalls, List.foldr_nil]
  | unary operator operand =>
    simp only [calls, called, mostCalls, List.foldr_cons, List.foldr_nil, Nat.max_zero]
  | binary left operator right =>
    rw [called, mostCalls_spine, calls, chainCalls]
    simp only [List.map_nil, mostCalls, List.foldr_nil, Nat.max_zero]
  | paren opening inner closing =>
    simp only [calls, called, mostCalls, List.foldr_cons, List.foldr_nil, Nat.max_zero]

/-- **The nesting bounds the calls.** A chain nests one call more than its operands do. -/
theorem calls_le_nesting (expr : Expr) :
    expr.calls ≤ 2 * expr.nesting + 2 ∧ expr.chainCalls ≤ 2 * expr.nesting + 1 := by
  induction expr with
  | number literal | unary operator operand ih | binary left operator right ihLeft ihRight
  | paren opening inner closing ih =>
    simp only [calls, chainCalls, nesting]
    omega

/-! ### Evaluation with a limit -/

/-- The outcome of an expression, if its evaluation needs to nest no more calls than are given; the
fault `none` says that it does. -/
def evaluateWithin : Nat → Expr → Except (Option (Located EvalFault)) Value
  | 0, _ => .error none
  | _ + 1, number literal => .ok (literal.value.getD .zero)
  | limit + 1, unary operator operand => do
    (operator.applySign (← operand.evaluateWithin limit)).mapError some
  | limit + 1, binary left operator right => do
    let chain := (binary left operator right).spine []
    chain.2.foldlM
      (fun value link => do
        (link.1.applyBinary value (← link.2.evaluateWithin limit)).mapError some)
      (← chain.1.evaluateWithin limit)
  | limit + 1, paren _ inner _ => inner.evaluateWithin limit

/-- An outcome whose faults are renamed goes on as the outcome does. -/
theorem mapError_bind {ε ε' α β : Type} (outcome : Except ε α) (next : α → Except ε β)
    (rename : ε → ε') :
    (outcome >>= next).mapError rename =
      outcome.mapError rename >>= fun value => (next value).mapError rename := by
  cases outcome <;> rfl

/-- The loop along a chain has its outcome if all right operands have theirs. -/
theorem foldlM_within {links : List (Token × Expr)} {limit : Nat}
    (within : ∀ link ∈ links, link.2.evaluateWithin limit = link.2.evaluate.mapError some)
    (first : Value) :
    links.foldlM
        (fun value link => do
          (link.1.applyBinary value (← link.2.evaluateWithin limit)).mapError some)
        first =
      (links.foldlM fold first).mapError some := by
  induction links generalizing first with
  | nil => rfl
  | cons link others ih =>
    obtain ⟨here, later⟩ := List.forall_mem_cons.mp within
    rw [List.foldlM_cons, List.foldlM_cons, here, mapError_bind, fold, mapError_bind]
    congr 1
    funext value
    exact ih later value

/-- **An evaluation nests no more calls than `calls`**: allowed so many, it has its outcome. -/
theorem evaluateWithin_eq {limit : Nat} {expr : Expr} (enough : expr.calls ≤ limit) :
    expr.evaluateWithin limit = expr.evaluate.mapError some := by
  induction limit generalizing expr with
  | zero =>
    rw [calls_eq] at enough
    omega
  | succ limit ih =>
    have within : ∀ callee ∈ expr.called,
        callee.evaluateWithin limit = callee.evaluate.mapError some := by
      intro callee member
      have few := calls_le_mostCalls member
      rw [calls_eq] at enough
      exact ih (by omega)
    cases expr with
    | number literal => rfl
    | unary operator operand =>
      rw [evaluateWithin, within operand List.mem_cons_self, evaluate_unary, mapError_bind]
    | binary left operator right =>
      obtain ⟨first, others⟩ := List.forall_mem_cons.mp within
      rw [evaluateWithin, first, (evaluate_eq_loop (binary left operator right)).2, mapError_bind]
      congr 1
      funext value
      exact foldlM_within (List.forall_mem_map.mp others) value
    | paren opening inner closing =>
      rw [evaluateWithin, within inner List.mem_cons_self, evaluate_paren]

end IntCalc.Expr
