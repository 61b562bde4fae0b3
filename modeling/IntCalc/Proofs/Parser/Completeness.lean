/-
**Trees of the grammar are read back.**

If the tokens that come next are the leaves of a tree of the grammar, and the tree fits the levels
and the operators that are left, then the parser reads this tree, takes exactly its leaves and
records nothing (`run_of_derives`). The induction on the derivation needs more than that: a tree
at the front of a longer chain is read as the beginning of the chain. So the statement behind it
(`ReadAtFront`) is about what is read from the tree on: whatever a chain goes on to that starts with
the tree, an expression read at the front of its leaves goes on to it too.

A tree is not always read whole at the front of a chain: `1 + 2` is not the beginning of `1 + 2 * 3`.
A tree of the loosest category must therefore not be followed by a product.
-/
import IntCalc.Proofs.Grammar
import IntCalc.Proofs.Parser.Reads

namespace IntCalc

/-! ### Operators next to trees -/

namespace Precedence

/-- An operator that is chained within a category goes on with an operand of it. -/
theorem above?_of_rank_chained_le {outer precedence : Precedence} {kind : Token.Kind}
    (joins : ofBinary? kind = some precedence)
    (le : precedence.chained.rank ≤ outer.category.rank) : outer.above? kind = some precedence := by
  refine above?_eq_some_iff.mpr ⟨joins, ?_⟩
  revert joins le
  cases kind <;> cases precedence <;> cases outer <;> decide

theorem above?_sum_of_chained {precedence : Precedence} {kind : Token.Kind}
    (joins : ofBinary? kind = some precedence) (loose : precedence.chained = .expr) :
    sum.above? kind = none := by
  revert joins loose
  cases kind <;> cases precedence <;> decide

/-- A right operand ends where its chain does. -/
theorem above?_of_chained {precedence : Precedence} {kind next : Token.Kind}
    (joins : ofBinary? kind = some precedence)
    (bounded : precedence.chained = .expr → sum.above? next = none) :
    precedence.above? next = none := by
  cases precedence with
  | lowest => cases kind <;> simp [ofBinary?] at joins
  | sum => exact bounded rfl
  | product | sign => cases next <;> rfl

theorem category_ne_expr {precedence : Precedence} {kind : Token.Kind}
    (joins : ofBinary? kind = some precedence) : precedence.category ≠ .expr := by
  revert joins
  cases kind <;> cases precedence <;> decide

end Precedence

namespace Parser

/-! ### Tokens taken at once -/

/-- The parser with other tokens left, after so many more operators. -/
def past (parser : Parser) (rest : List Token) (operators : Nat) : Parser :=
  { parser with rest, operators := parser.operators + operators }

@[simp]
theorem rest_past (parser : Parser) (rest : List Token) (operators : Nat) :
    (parser.past rest operators).rest = rest := rfl

@[simp]
theorem operators_past (parser : Parser) (rest : List Token) (operators : Nat) :
    (parser.past rest operators).operators = parser.operators + operators := rfl

@[simp]
theorem past_past (parser : Parser) (rest rest' : List Token) (operators operators' : Nat) :
    (parser.past rest operators).past rest' operators' =
      parser.past rest' (operators + operators') := by
  simp [past, Nat.add_assoc]

@[simp]
theorem current_past_cons (parser : Parser) (token : Token) (rest : List Token)
    (operators : Nat) : (parser.past (token :: rest) operators).current = token := rfl

theorem advance_eq_past {parser : Parser} {token : Token} {rest : List Token}
    (next : parser.rest = token :: rest) : parser.advance = parser.past rest 0 := by
  simp [advance, past, next]

theorem advanceOperator_eq_past {parser : Parser} {token : Token} {rest : List Token}
    (next : parser.rest = token :: rest) : parser.advanceOperator = parser.past rest 1 := by
  simp [advanceOperator, advance, past, next]

/-! ### Trees at the front -/

/-- A tree of a category is read at the front of its leaves, up to where a chain may go on. -/
def ReadAtFront (category : Category) (tree : Expr) : Prop :=
  ∀ ⦃levels : Nat⦄ ⦃outer : Precedence⦄ ⦃before after : Parser⦄ ⦃following : List Token⦄
    ⦃whole : Expr⦄, category.rank ≤ outer.category.rank →
    before.rest = tree.leaves ++ following →
    (category = .expr →
      Precedence.sum.above? (before.past following tree.operatorCount).current.kind = none) →
    tree.nesting ≤ levels → before.operators + tree.operatorCount ≤ maxOperators →
    Reads levels (.chain outer tree) (before.past following tree.operatorCount) whole after →
    Reads (levels + 1) (.expression outer) before whole after

namespace ReadAtFront

variable {category looser : Category} {tree : Expr}

/-- A tree at the front is read as an operand of whatever stands around it. -/
theorem reads (front : ReadAtFront category tree) (levels : Nat) (outer : Precedence)
    (before : Parser) (following : List Token) (le : category.rank ≤ outer.category.rank)
    (next : before.rest = tree.leaves ++ following)
    (bounded : category = .expr →
      Precedence.sum.above? (before.past following tree.operatorCount).current.kind = none)
    (fits : tree.nesting < levels) (few : before.operators + tree.operatorCount ≤ maxOperators)
    (ends : outer.above? (before.past following tree.operatorCount).current.kind = none) :
    Reads levels (.expression outer) before tree (before.past following tree.operatorCount) := by
  obtain ⟨levels, rfl⟩ : ∃ fewer, levels = fewer + 1 := ⟨levels - 1, by omega⟩
  exact front le next bounded (Nat.le_of_lt_succ fits) few (.stop ends)

/-- A tree of a category that needs no care is read at the front as one of a looser category. -/
theorem loosen (front : ReadAtFront category tree) (le : category.rank ≤ looser.rank)
    (tight : category ≠ .expr) : ReadAtFront looser tree := by
  intro levels outer before after following whole fitsOuter next _ fits few goesOn
  exact front (Nat.le_trans le fitsOuter) next (fun loose => absurd loose tight) fits few goesOn

/-- **An operator and its operands are read at the front** if the operands are. -/
theorem binary {operator : Token} {precedence : Precedence} {left right : Expr}
    (joins : Precedence.ofBinary? operator.kind = some precedence)
    (first : ReadAtFront precedence.chained left) (second : ReadAtFront precedence.category right) :
    ReadAtFront precedence.chained (.binary left operator right) := by
  intro levels outer before after following whole le next bounded fits few goesOn
  simp only [Expr.leaves, List.append_assoc, List.cons_append] at next
  simp only [Expr.nesting, Nat.max_le] at fits
  simp only [Expr.operatorCount] at few bounded goesOn
  have taken : (before.past (operator :: (right.leaves ++ following))
      left.operatorCount).advanceOperator =
        before.past (right.leaves ++ following) (left.operatorCount + 1) := by
    rw [advanceOperator_eq_past (rest_past ..), past_past]
  have behind := second.reads levels precedence
    (before.past (right.leaves ++ following) (left.operatorCount + 1)) following (Nat.le_refl _)
    (rest_past ..) (fun loose => absurd loose (Precedence.category_ne_expr joins)) (by omega)
    (by rw [operators_past]; omega)
    (by rw [past_past]; exact Precedence.above?_of_chained joins bounded)
  rw [past_past, ← taken] at behind
  exact first le next (fun loose => Precedence.above?_sum_of_chained joins loose) fits.1
    (by omega) (.link (Precedence.above?_of_rank_chained_le joins le)
      (by rw [operators_past]; omega) behind goesOn)

end ReadAtFront

/-- **Every tree of the grammar is read at the front.** -/
theorem readAtFront_of_derives {category : Category} {tree : Expr}
    (derived : tree.Derives category) : ReadAtFront category tree := by
  induction derived with
  | @number literal isNumber =>
    intro levels outer before after following whole _ next _ _ _ goesOn
    have front : before.current = literal := current_of_rest next
    have taken : before.advance = before.past following 0 := advance_eq_past next
    have read : Reads levels .operand before (.number before.current) before.advance :=
      .number (front ▸ isNumber)
    rw [front, taken] at read
    exact .expression read goesOn
  | @paren opening closing inner opens _ closes ih =>
    intro levels outer before after following whole _ next _ fits few goesOn
    simp only [Expr.leaves, List.cons_append, List.append_assoc, List.nil_append] at next
    simp only [Expr.nesting] at fits
    have front := current_of_rest next
    have within := ih.reads levels .lowest
      (before.past (inner.leaves ++ closing :: following) 0) (closing :: following)
      (Nat.le_refl _) (rest_past ..) (fun _ => by simp [closes]; rfl) (by omega) few
      (by simp [closes]; rfl)
    rw [past_past, Nat.zero_add, ← advance_eq_past next] at within
    refine .expression ?_ goesOn
    have read := Reads.closed (front ▸ opens) within closes
    rwa [front, advance_eq_past (rest_past ..), past_past, Nat.add_zero, current_past_cons] at read
  | @signed operator operand sign _ ih =>
    intro levels outer before after following whole _ next _ fits few goesOn
    simp only [Expr.leaves, List.cons_append] at next
    simp only [Expr.nesting] at fits
    have front := current_of_rest next
    have behind := ih.reads levels .sign (before.past (operand.leaves ++ following) 0) following
      (Nat.le_refl _) (rest_past ..) (fun loose => by cases loose) (by omega) few
      (Precedence.above?_sign _)
    rw [past_past, Nat.zero_add, ← advance_eq_past next] at behind
    refine .expression ?_ goesOn
    have read := Reads.signed (Precedence.isSign_iff.mpr (front ▸ sign)) behind
    rwa [front] at read
  | product _ joins _ first second =>
    exact first.binary (Precedence.ofBinary?_eq_product_iff.mpr joins) second
  | sum _ joins _ first second =>
    exact first.binary (Precedence.ofBinary?_eq_sum_iff.mpr joins) second
  | unaryOfPrimary _ ih | termOfUnary _ ih | exprOfTerm _ ih =>
    exact ih.loosen (by decide) (by decide)

/-- **A line of the grammar is read back as its tree**, if the tree fits the levels and the
operators that are left. -/
theorem run_of_derives {tree : Expr} (derived : tree.Derives .expr) (levels : Nat)
    (before : Parser) (next : before.rest = tree.leaves) (fits : tree.nesting < levels)
    (few : before.operators + tree.operatorCount ≤ maxOperators) :
    (expression levels).run .lowest before = (tree, before.past [] tree.operatorCount) := by
  have front := readAtFront_of_derives derived
  refine (front.reads levels .lowest before [] (Nat.le_refl _) ?_ (fun _ => rfl) fits few
    rfl).run_eq
  rw [next, List.append_nil]

end Parser

end IntCalc
