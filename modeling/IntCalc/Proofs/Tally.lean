/-
**Sums of products with two accumulators.**

A tally goes over a row of operators and operands once, from left to right, and holds no more than
the sum of the terms that are finished, the term that is being multiplied, and the sign that joins
the two (`Tally.run`). The same pass over trees in place of values builds the tree of the row
(`Draft.run`); at every moment the outcome of what has been built is the tally so far
(`Draft.outcome_step`), so the tree that comes out evaluates to what the tally comes to
(`Draft.evaluate_run`).
-/
import IntCalc.Proofs.Arithmetic
import IntCalc.Proofs.Grammar

namespace IntCalc

/-- An operator at a position, with what stands on its right. -/
structure Link (α : Type) where
  operator : Operator
  position : Nat
  operand : α

/-- A link with something else in the place of its operand. -/
def Link.map {α β : Type} (change : α → β) (link : Link α) : Link β :=
  ⟨link.operator, link.position, change link.operand⟩

/-! ### The two accumulators -/

/-- The state of a tally. -/
structure Tally where
  /-- The sum of the terms that are finished. -/
  sum : Value
  /-- What joins the current term to the sum. -/
  sign : Operator
  position : Nat
  term : Value

namespace Tally

/-- The tally of a single operand: it is to be added to nothing. -/
def start (first : Value) : Tally := ⟨.zero, .add, 0, first⟩

/-- The sum with the current term. -/
def settle (tally : Tally) : Evaluation := tally.sign.applyAt tally.position tally.sum tally.term

/-- The tally after one more operator: products and quotients change the current term, sums and
differences finish it. -/
def step (tally : Tally) (link : Link Value) : Except (Located EvalFault) Tally :=
  match link.operator with
  | .mul | .div => do
    let term ← link.operator.applyAt link.position tally.term link.operand
    return { tally with term }
  | .add | .sub => do
    let sum ← tally.settle
    return ⟨sum, link.operator, link.position, link.operand⟩

/-- What a tally comes to. -/
def run (tally : Tally) : List (Link Value) → Evaluation
  | [] => tally.settle
  | link :: links => do (← tally.step link).run links

theorem settle_start (first : Value) : (start first).settle = .ok first := by
  have exact : (0 : Int) + first.toInt = first.toInt := Int.zero_add _
  simp only [start, settle, Operator.applyAt, Operator.apply, Value.zero, exact, fitting]
  rw [dif_pos first.least_le, dif_pos first.le_greatest]
  rfl

end Tally

/-! ### Trees in place of values -/

/-- A tree that is being built: the finished terms with the operator behind them, if there are any,
and the current term. -/
structure Draft where
  finished : Option (Expr × Operator × Nat)
  term : Expr

namespace Draft

/-- The tree as it would be if the row ended here. -/
def settle (draft : Draft) : Expr :=
  match draft.finished with
  | none => draft.term
  | some (sum, operator, position) => .binary sum (operator.token position) draft.term

/-- The draft after one more operator. -/
def step (draft : Draft) (link : Link Expr) : Draft :=
  match link.operator with
  | .mul | .div =>
    { draft with term := .binary draft.term (link.operator.token link.position) link.operand }
  | .add | .sub => ⟨some (draft.settle, link.operator, link.position), link.operand⟩

def run (draft : Draft) (links : List (Link Expr)) : Expr := (links.foldl step draft).settle

/-- The tally that a draft stands for, if its trees have values. -/
def outcome (draft : Draft) : Except (Located EvalFault) Tally :=
  match draft.finished with
  | none => do return .start (← draft.term.evaluate)
  | some (sum, operator, position) => do
    let sum ← sum.evaluate
    let term ← draft.term.evaluate
    return ⟨sum, operator, position, term⟩

/-- The tree of a draft evaluates to what its tally comes to. -/
theorem evaluate_settle (draft : Draft) :
    draft.settle.evaluate = (do (← draft.outcome).settle) := by
  obtain ⟨finished, term⟩ := draft
  cases finished with
  | none =>
    simp only [settle, outcome, bind_assoc, pure_bind, Tally.settle_start]
    exact (bind_pure _).symm
  | some earlier =>
    obtain ⟨sum, operator, position⟩ := earlier
    simp only [settle, outcome, Expr.evaluate_binary, Token.applyBinary_token, bind_assoc,
      pure_bind, Tally.settle]

/-- **One operator more** changes the tally of a draft as it changes a tally. -/
theorem outcome_step (draft : Draft) (link : Link Expr) {operand : Value}
    (evaluated : link.operand.evaluate = .ok operand) :
    (draft.step link).outcome =
      (do (← draft.outcome).step ⟨link.operator, link.position, operand⟩) := by
  obtain ⟨operator, position, tree⟩ := link
  replace evaluated : tree.evaluate = pure operand := evaluated
  cases operator with
  | add | sub =>
    show (do
      let sum ← draft.settle.evaluate
      let term ← tree.evaluate
      pure (Tally.mk sum _ position term)) = _
    rw [evaluate_settle, evaluated]
    simp only [Tally.step, bind_assoc, pure_bind]
  | mul | div =>
    obtain ⟨finished, term⟩ := draft
    cases finished with
    | none =>
      simp only [step, outcome, Expr.evaluate_binary, Token.applyBinary_token, Tally.step,
        evaluated, bind_assoc, pure_bind, Tally.start]
    | some earlier =>
      simp only [step, outcome, Expr.evaluate_binary, Token.applyBinary_token, Tally.step,
        evaluated, bind_assoc, pure_bind]

/-- **The tree of a row evaluates to what its tally comes to.** -/
theorem evaluate_run {α : Type} (tree : α → Expr) (value : α → Value)
    (evaluated : ∀ item, (tree item).evaluate = .ok (value item)) (draft : Draft)
    (links : List (Link α)) :
    (draft.run (links.map (·.map tree))).evaluate =
      (do (← draft.outcome).run (links.map (·.map value))) := by
  induction links generalizing draft with
  | nil => exact draft.evaluate_settle
  | cons link links ih =>
    have first := draft.outcome_step (link.map tree) (evaluated link.operand)
    rw [List.map_cons, run, List.foldl_cons, ← run, ih, first, bind_assoc]
    rfl

/-! ### The shape of the tree -/

theorem leaves_step (draft : Draft) (link : Link Expr) :
    (draft.step link).settle.leaves =
      draft.settle.leaves ++ link.operator.token link.position :: link.operand.leaves := by
  obtain ⟨operator, position, tree⟩ := link
  cases operator with
  | add | sub => rfl
  | mul | div =>
    obtain ⟨finished, term⟩ := draft
    cases finished with
    | none => rfl
    | some earlier => simp [step, settle, Expr.leaves]

/-- The leaves of the tree of a row are the tokens of the row. -/
theorem leaves_run (draft : Draft) (links : List (Link Expr)) :
    (draft.run links).leaves =
      draft.settle.leaves ++
        links.flatMap fun link => link.operator.token link.position :: link.operand.leaves := by
  induction links generalizing draft with
  | nil => exact (List.append_nil _).symm
  | cons link links ih =>
    rw [run, List.foldl_cons, ← run, ih, leaves_step, List.flatMap_cons, List.append_assoc]

theorem operatorCount_step (draft : Draft) (link : Link Expr) :
    (draft.step link).settle.operatorCount =
      draft.settle.operatorCount + 1 + link.operand.operatorCount := by
  obtain ⟨operator, position, tree⟩ := link
  cases operator with
  | add | sub => rfl
  | mul | div =>
    obtain ⟨finished, term⟩ := draft
    cases finished with
    | none => rfl
    | some earlier =>
      simp only [step, settle, Expr.operatorCount]
      omega

/-- A row has as many operators as links, if its operands have none. -/
theorem operatorCount_run (draft : Draft) (links : List (Link Expr))
    (single : ∀ link ∈ links, link.operand.operatorCount = 0) :
    (draft.run links).operatorCount = draft.settle.operatorCount + links.length := by
  induction links generalizing draft with
  | nil => rfl
  | cons link links ih =>
    obtain ⟨first, others⟩ := List.forall_mem_cons.mp single
    rw [run, List.foldl_cons, ← run, ih _ others, operatorCount_step, first, List.length_cons]
    omega

/-- A tree that can be an operand of a row: a number with a sign at most. -/
structure Operand (tree : Expr) : Prop where
  derives : tree.Derives .unary
  nesting_le : tree.nesting ≤ 1

/-- A draft stays flat: all terms but the last hang on the left. -/
structure Flat (draft : Draft) : Prop where
  derives_term : draft.term.Derives .term
  nesting_term_le : draft.term.nesting ≤ 2
  finished : ∀ {sum operator position}, draft.finished = some (sum, operator, position) →
    sum.Derives .expr ∧ sum.nesting ≤ 3 ∧ (operator = .add ∨ operator = .sub)

namespace Flat

theorem of_operand {tree : Expr} (operand : Operand tree) : Flat ⟨none, tree⟩ :=
  ⟨.termOfUnary operand.derives, Nat.le_succ_of_le operand.nesting_le, fun none => by cases none⟩

/-- **The tree of a flat draft** is an expression of the grammar, and nests three levels at most. -/
theorem settle {draft : Draft} (flat : draft.Flat) :
    draft.settle.Derives .expr ∧ draft.settle.nesting ≤ 3 := by
  obtain ⟨finished, term⟩ := draft
  have derived : term.Derives .term := flat.derives_term
  have shallow : term.nesting ≤ 2 := flat.nesting_term_le
  cases finished with
  | none => exact ⟨.exprOfTerm derived, Nat.le_succ_of_le shallow⟩
  | some earlier =>
    obtain ⟨sum, operator, position⟩ := earlier
    obtain ⟨derivedSum, shallowSum, joins⟩ := flat.finished rfl
    refine ⟨.sum derivedSum ?_ derived, ?_⟩
    · rcases joins with rfl | rfl
      · exact .inl rfl
      · exact .inr rfl
    · show max sum.nesting (1 + term.nesting) ≤ 3
      omega

/-- **One operator more** keeps a draft flat. -/
theorem step {draft : Draft} (flat : draft.Flat) {link : Link Expr}
    (operand : Operand link.operand) : (draft.step link).Flat := by
  obtain ⟨operator, position, tree⟩ := link
  have derived : tree.Derives .unary := operand.derives
  have shallow : tree.nesting ≤ 1 := operand.nesting_le
  have shallowTerm := flat.nesting_term_le
  obtain ⟨derivedSettle, shallowSettle⟩ := flat.settle
  cases operator with
  | add =>
    refine ⟨.termOfUnary derived, Nat.le_succ_of_le shallow, fun finished => ?_⟩
    cases finished
    exact ⟨derivedSettle, shallowSettle, .inl rfl⟩
  | sub =>
    refine ⟨.termOfUnary derived, Nat.le_succ_of_le shallow, fun finished => ?_⟩
    cases finished
    exact ⟨derivedSettle, shallowSettle, .inr rfl⟩
  | mul =>
    refine ⟨.product flat.derives_term (.inl rfl) derived, ?_, flat.finished⟩
    show max draft.term.nesting (1 + tree.nesting) ≤ 2
    omega
  | div =>
    refine ⟨.product flat.derives_term (.inr rfl) derived, ?_, flat.finished⟩
    show max draft.term.nesting (1 + tree.nesting) ≤ 2
    omega

/-- **The tree of a row** is an expression of the grammar, and nests three levels at most. -/
theorem run {draft : Draft} (flat : draft.Flat) (links : List (Link Expr))
    (operands : ∀ link ∈ links, Operand link.operand) :
    (draft.run links).Derives .expr ∧ (draft.run links).nesting ≤ 3 := by
  induction links generalizing draft with
  | nil => exact flat.settle
  | cons link links ih =>
    obtain ⟨first, others⟩ := List.forall_mem_cons.mp operands
    exact ih (flat.step first) others

end Flat

end Draft

end IntCalc
