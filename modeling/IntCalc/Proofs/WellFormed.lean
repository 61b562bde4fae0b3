/-
**The tree of every line is well-formed.**

A tree of the grammar keeps to precedence and association, and that can be seen one expression at a
time (`Expr.WellPlaced`): an operand of a sign is no chain, an operand of a product is no sum, and
only left operands go on with a chain of the same precedence. Every tree that is read is one of the
grammar, also where tokens are dropped or put in and where a limit ends the reading, so it is
well-formed whatever the line is, and no evaluation of it meets a token that is no operator
(`wellFormed_parse`).
-/
import IntCalc.Proofs.Evaluation.Exact
import IntCalc.Proofs.Line
import IntCalc.Proofs.Parser.Trees

namespace IntCalc

namespace Expr

/-! ### Single expressions -/

/-- An expression is a sum or a difference. -/
def IsSum : Expr → Prop
  | binary _ operator _ => operator.kind = .plus ∨ operator.kind = .minus
  | number _ | unary _ _ | paren _ _ _ => False

/-- The tokens of an expression are those of its form, and its operands bind tightly enough. -/
def WellPlaced : Expr → Prop
  | number literal => literal.kind = .number
  | unary operator operand =>
    (operator.kind = .plus ∨ operator.kind = .minus) ∧ operand.kind ≠ .binary
  | binary left operator right =>
    (operator.kind = .star ∨ operator.kind = .slash) ∧ ¬ left.IsSum ∧ right.kind ≠ .binary ∨
      (operator.kind = .plus ∨ operator.kind = .minus) ∧ ¬ right.IsSum
  | paren opening _ closing => opening.kind = .openParen ∧ closing.kind = .closeParen

/-- Every expression inside an expression is well placed. -/
abbrev WellFormed : Expr → Prop := Everywhere WellPlaced

/-! ### Trees of the grammar -/

/-- A unary is no chain. -/
theorem Derives.kind_ne_binary {category : Category} {expr : Expr}
    (derived : expr.Derives category) (tight : category.rank ≤ Category.unary.rank) :
    expr.kind ≠ .binary := by
  induction derived with
  | number _ | paren _ _ _ | signed _ _ =>
    intro equal
    cases equal
  | unaryOfPrimary _ ih => exact ih (by decide)
  | product _ _ _ | sum _ _ _ | termOfUnary _ _ | exprOfTerm _ _ => exact absurd tight (by decide)

/-- A term is no sum. -/
theorem Derives.not_isSum {category : Category} {expr : Expr} (derived : expr.Derives category)
    (tight : category.rank ≤ Category.term.rank) : ¬ expr.IsSum := by
  induction derived with
  | number _ | paren _ _ _ | signed _ _ => exact id
  | product _ joins _ =>
    rintro (plus | minus)
    · simp [plus] at joins
    · simp [minus] at joins
  | unaryOfPrimary _ ih | termOfUnary _ ih => exact ih (by decide)
  | sum _ _ _ | exprOfTerm _ _ => exact absurd tight (by decide)

/-- **A tree of the grammar is well-formed.** -/
theorem Derives.wellFormed {category : Category} {expr : Expr} (derived : expr.Derives category) :
    expr.WellFormed := by
  induction derived with
  | number isNumber => exact everywhere_iff.mpr ⟨List.forall_mem_nil _, isNumber⟩
  | paren opens _ closes ih =>
    exact everywhere_iff.mpr ⟨List.forall_mem_singleton.mpr ih, opens, closes⟩
  | signed sign derived ih =>
    have tight := derived.kind_ne_binary (Nat.le_refl _)
    exact everywhere_iff.mpr ⟨List.forall_mem_singleton.mpr ih, sign, tight⟩
  | product first joins second ihFirst ihSecond =>
    have noSum := first.not_isSum (Nat.le_refl _)
    have tight := second.kind_ne_binary (Nat.le_refl _)
    have operands := List.forall_mem_cons.mpr ⟨ihFirst, List.forall_mem_singleton.mpr ihSecond⟩
    exact everywhere_iff.mpr ⟨operands, .inl ⟨joins, noSum, tight⟩⟩
  | sum first joins second ihFirst ihSecond =>
    have noSum := second.not_isSum (Nat.le_refl _)
    have operands := List.forall_mem_cons.mpr ⟨ihFirst, List.forall_mem_singleton.mpr ihSecond⟩
    exact everywhere_iff.mpr ⟨operands, .inr ⟨joins, noSum⟩⟩
  | unaryOfPrimary _ ih | termOfUnary _ ih | exprOfTerm _ ih => exact ih

/-! ### Evaluations -/

theorem WellPlaced.isArithmetic {expr : Expr} (placed : expr.WellPlaced) : expr.IsArithmetic := by
  cases expr with
  | number literal | paren opening inner closing => trivial
  | unary operator operand => exact placed.1
  | binary left operator right =>
    rcases placed with ⟨product, -, -⟩ | ⟨plus | minus, -⟩
    · exact .inr (.inr product)
    · exact .inl plus
    · exact .inr (.inl minus)

/-- An expression that breaks divides by zero or has a value out of range. -/
theorem cause_ne_badOperator (expr : Expr) (kind : Token.Kind) :
    expr.cause ≠ .badOperator kind := by
  intro equal
  unfold cause at equal
  split at equal
  · cases equal
  · cases equal

theorem Outcome.value_ne_badOperator {expr : Expr} {fault : Located EvalFault}
    (outcome : expr.Outcome (.error fault)) (kind : Token.Kind) :
    fault.value ≠ .badOperator kind := by
  cases outcome with
  | @fault earlier later broken operator inside first breaks own =>
    exact broken.cause_ne_badOperator kind

/-- **An evaluation meets no bad operator** in an expression of arithmetic. -/
theorem Arithmetic.evaluate_ne_badOperator {expr : Expr} (arithmetic : expr.Arithmetic)
    (kind : Token.Kind) (span : Span) : expr.evaluate ≠ .error ⟨.badOperator kind, span⟩ := by
  intro failed
  have outcome := arithmetic.outcome
  rw [failed] at outcome
  exact outcome.value_ne_badOperator kind rfl

end Expr

/-! ### Lines -/

/-- **The tree of every line is well-formed**, faultless or not, and its evaluation never meets a
token that cannot stand as an operator. -/
theorem wellFormed_parse (text : String) :
    (parse text).root.WellFormed ∧
      ∀ kind span, (parse text).root.evaluate ≠ .error ⟨.badOperator kind, span⟩ := by
  have derived : (parse text).root.Derives .expr := ((reads_line text).derives trivial).1
  have arithmetic : (parse text).root.Arithmetic :=
    derived.wellFormed.mono fun _ => Expr.WellPlaced.isArithmetic
  exact ⟨derived.wellFormed, arithmetic.evaluate_ne_badOperator⟩

end IntCalc
