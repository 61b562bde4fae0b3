/-
**Evaluation is exact arithmetic.**

Every expression has an exact value over the integers (`Expr.exact`). It has a result if this value
is in range and it does not divide by zero (`HasResult`), and it fits if that holds of every
expression in it (`Fits`). An operator breaks if its operands fit and it has no result itself.

The operators of an expression are applied in the order of `subexpressions`. Up to the first one that
breaks, every result is the exact one; so an expression of arithmetic evaluates to its exact value if
it fits, and otherwise to the fault of the first operator that breaks (`evaluate_exact`). The step is
one operator, applied to operands that fit (`Outcome.own`), or passing on the fault of an operand
(`Outcome.of_operand`).
-/
import IntCalc.Expr.Eval
import IntCalc.Proofs.Subexpressions

namespace IntCalc

/-! ### Exact values -/

namespace Token

/-- What a sign makes of an integer. -/
def exactSign (operator : Token) (operand : Int) : Int :=
  if operator.kind = .minus then -operand else operand

/-- What an operator makes of two integers. Quotients are truncated toward zero. -/
def exactBinary (operator : Token) (left right : Int) : Int :=
  match operator.kind with
  | .plus => left + right
  | .minus => left - right
  | .star => left * right
  | .slash => left.tdiv right
  | _ => 0

end Token

namespace Expr

/-- The value of an expression over the integers. A numeral without a value counts as zero. -/
def exact : Expr → Int
  | number literal => (literal.value.map Value.toInt).getD 0
  | unary operator operand => operator.exactSign operand.exact
  | binary left operator right => operator.exactBinary left.exact right.exact
  | paren _ inner _ => inner.exact

/-- An expression is a quotient whose divisor is zero. -/
def DividesByZero : Expr → Prop
  | binary _ operator right => operator.kind = .slash ∧ right.exact = 0
  | number _ | unary _ _ | paren _ _ _ => False

instance : DecidablePred DividesByZero
  | binary _ operator right => inferInstanceAs (Decidable (operator.kind = .slash ∧ right.exact = 0))
  | number _ | unary _ _ | paren _ _ _ => inferInstanceAs (Decidable False)

/-- The divisor, if there is one, is not zero, and the exact value is in range. -/
def HasResult (expr : Expr) : Prop :=
  ¬ expr.DividesByZero ∧ -2147483648 ≤ expr.exact ∧ expr.exact ≤ 2147483647

instance : DecidablePred HasResult := fun expr =>
  inferInstanceAs (Decidable (¬ expr.DividesByZero ∧ -2147483648 ≤ expr.exact ∧ _))

/-- No divisor is zero, and every exact value is in range. -/
abbrev Fits : Expr → Prop := Everywhere HasResult

/-- The operands of an expression fit, and the expression has no result itself. -/
def Breaks (expr : Expr) : Prop := (∀ operand ∈ expr.operands, operand.Fits) ∧ ¬ expr.HasResult

instance : DecidablePred Breaks := fun expr =>
  inferInstanceAs (Decidable ((∀ operand ∈ expr.operands, operand.Fits) ∧ ¬ expr.HasResult))

/-- Why an expression that breaks has no result. -/
def cause (expr : Expr) : EvalFault := if expr.DividesByZero then .divisionByZero else .overflow

/-! ### Expressions of arithmetic -/

/-- The operator of an expression is one that can stand there. -/
def IsArithmetic : Expr → Prop
  | unary operator _ => operator.kind = .plus ∨ operator.kind = .minus
  | binary _ operator _ =>
    operator.kind = .plus ∨ operator.kind = .minus ∨ operator.kind = .star ∨ operator.kind = .slash
  | number _ | paren _ _ _ => True

instance : DecidablePred IsArithmetic
  | unary operator _ => inferInstanceAs (Decidable (operator.kind = .plus ∨ _))
  | binary _ operator _ => inferInstanceAs (Decidable (operator.kind = .plus ∨ _ ∨ _ ∨ _))
  | number _ | paren _ _ _ => inferInstanceAs (Decidable True)

/-- Every operator of an expression is one that can stand where it does. -/
abbrev Arithmetic : Expr → Prop := Everywhere IsArithmetic

end Expr

namespace Token

/-- A sign gives its exact result, if that is in range. -/
theorem applySign_eq_checked {operator : Token}
    (sign : operator.kind = .plus ∨ operator.kind = .minus) (operand : Value) :
    operator.applySign operand =
      operator.checked (Value.ofInt? (operator.exactSign operand.toInt)) := by
  unfold applySign exactSign
  rcases sign with plus | minus
  · simp only [plus, reduceCtorEq, if_false, Value.ofInt?_toInt]
    rfl
  · simp only [minus, if_true]
    rfl

/-- An operator gives its exact result, if that is in range and there is no zero to divide by. -/
theorem applyBinary_eq_checked {operator : Token}
    (known : operator.kind = .plus ∨ operator.kind = .minus ∨ operator.kind = .star ∨
      operator.kind = .slash) (left right : Value) :
    operator.applyBinary left right =
      if operator.kind = .slash ∧ right.toInt = 0 then operator.failing .divisionByZero
      else operator.checked (Value.ofInt? (operator.exactBinary left.toInt right.toInt)) := by
  unfold applyBinary exactBinary
  rcases known with kind | kind | kind | kind
  · simp only [kind, reduceCtorEq, false_and, if_false]
    rfl
  · simp only [kind, reduceCtorEq, false_and, if_false]
    rfl
  · simp only [kind, reduceCtorEq, false_and, if_false]
    rfl
  · by_cases zero : right.toInt = 0
    · simp only [kind, zero, true_and, if_true]
    · simp only [kind, zero, and_false, if_false, Value.div?]

end Token

namespace Expr

/-! ### Outcomes -/

/-- What an expression of arithmetic evaluates to: its exact value, or the fault of the first
operator that breaks. -/
inductive Outcome (expr : Expr) : Evaluation → Prop
  | value {value : Value} (fits : expr.Fits) (exact : value.toInt = expr.exact) :
      Outcome expr (.ok value)
  | fault {earlier later : List Expr} {broken : Expr} {operator : Token}
      (inside : expr.subexpressions = earlier ++ broken :: later)
      (first : ∀ sub ∈ earlier, sub.HasResult) (breaks : broken.Breaks)
      (own : broken.operator? = some operator) :
      Outcome expr (.error ⟨broken.cause, operator.span⟩)

theorem hasResult_of_mem_flatMap {operands : List Expr} (fit : ∀ operand ∈ operands, operand.Fits) :
    ∀ sub ∈ operands.flatMap subexpressions, sub.HasResult := by
  intro sub member
  obtain ⟨operand, among, inside⟩ := List.mem_flatMap.mp member
  exact fit operand among sub inside

/-- **An operator whose operands fit** gives its exact result, or it is the first that breaks. -/
theorem Outcome.own {expr : Expr} {operator : Token} (own : expr.operator? = some operator)
    (fit : ∀ operand ∈ expr.operands, operand.Fits) :
    expr.Outcome (if expr.DividesByZero then operator.failing .divisionByZero
      else operator.checked (Value.ofInt? expr.exact)) := by
  have broken : ¬ expr.HasResult → expr.Outcome (operator.failing expr.cause) := fun none =>
    .fault expr.subexpressions_eq (hasResult_of_mem_flatMap fit) ⟨fit, none⟩ own
  by_cases zero : expr.DividesByZero
  · rw [if_pos zero]
    rw [cause, if_pos zero] at broken
    exact broken fun result => result.1 zero
  · rw [if_neg zero]
    rw [cause, if_neg zero] at broken
    cases checked : Value.ofInt? expr.exact with
    | none =>
      refine broken fun result => ?_
      have outside := Value.ofInt?_eq_none_iff.mp checked
      have inRange := result.2
      omega
    | some value =>
      have exact := Value.ofInt?_eq_some_iff.mp checked
      refine .value (everywhere_iff.mpr ⟨fit, zero, ?_⟩) exact
      exact exact ▸ ⟨value.least_le, value.le_greatest⟩

/-- **The fault of an operand** is that of the expression, if the operands before it fit. -/
theorem Outcome.of_operand {expr operand : Expr} {before after : List Expr}
    {fault : Located EvalFault} (outcome : operand.Outcome (.error fault))
    (among : expr.operands = before ++ operand :: after) (fit : ∀ other ∈ before, other.Fits) :
    expr.Outcome (.error fault) := by
  cases outcome with
  | @fault earlier later broken operator inside first breaks own =>
    have inside' : expr.subexpressions = (before.flatMap subexpressions ++ earlier) ++
        broken :: (later ++ after.flatMap subexpressions ++ [expr]) := by
      rw [subexpressions_eq, among, List.flatMap_append, List.flatMap_cons, inside]
      simp only [List.append_assoc, List.cons_append]
    refine .fault inside' (fun sub member => ?_) breaks own
    rcases List.mem_append.mp member with member | member
    · exact hasResult_of_mem_flatMap fit sub member
    · exact first sub member

/-- An outcome is the exact value of an expression that fits, or a fault. -/
theorem Outcome.value_or_fault {expr : Expr} {evaluation : Evaluation}
    (outcome : expr.Outcome evaluation) :
    (∃ value, evaluation = .ok value ∧ expr.Fits ∧ value.toInt = expr.exact) ∨
      ∃ fault, evaluation = .error fault ∧ expr.Outcome (.error fault) := by
  cases outcome with
  | @value result fits exact => exact .inl ⟨result, rfl, fits, exact⟩
  | fault inside first breaks own => exact .inr ⟨_, rfl, .fault inside first breaks own⟩

/-! ### One case for each form -/

theorem Outcome.number (literal : Token) :
    (number literal).Outcome (.ok (literal.value.getD .zero)) := by
  have exact : (literal.value.getD .zero).toInt = (Expr.number literal).exact := by
    cases equal : literal.value <;> simp [Expr.exact, equal, Value.zero]
  refine .value (everywhere_iff.mpr ⟨List.forall_mem_nil _, id, ?_⟩) exact
  exact exact ▸ ⟨(literal.value.getD .zero).least_le, (literal.value.getD .zero).le_greatest⟩

theorem Outcome.unary {operator : Token} {operand : Expr} {evaluation : Evaluation}
    (sign : operator.kind = .plus ∨ operator.kind = .minus) (outcome : operand.Outcome evaluation) :
    (unary operator operand).Outcome (do operator.applySign (← evaluation)) := by
  rcases outcome.value_or_fault with ⟨value, rfl, fits, exact⟩ | ⟨fault, rfl, broke⟩
  · have applied : (Expr.unary operator operand).Outcome _ :=
      .own rfl (List.forall_mem_singleton.mpr fits)
    simp only [DividesByZero, if_false, Expr.exact, ← exact] at applied
    rw [← Token.applySign_eq_checked sign] at applied
    exact applied
  · exact broke.of_operand rfl (List.forall_mem_nil _)

theorem Outcome.binary {operator : Token} {left right : Expr} {first second : Evaluation}
    (known : operator.kind = .plus ∨ operator.kind = .minus ∨ operator.kind = .star ∨
      operator.kind = .slash)
    (outcome : left.Outcome first) (outcome' : right.Outcome second) :
    (binary left operator right).Outcome (do
      let value ← first
      let value' ← second
      operator.applyBinary value value') := by
  rcases outcome.value_or_fault with ⟨value, rfl, fits, exact⟩ | ⟨fault, rfl, broke⟩
  · rcases outcome'.value_or_fault with ⟨value', rfl, fits', exact'⟩ | ⟨fault, rfl, broke⟩
    · have fit : ∀ operand ∈ (Expr.binary left operator right).operands, operand.Fits :=
        List.forall_mem_cons.mpr ⟨fits, List.forall_mem_singleton.mpr fits'⟩
      have applied : (Expr.binary left operator right).Outcome _ := .own rfl fit
      simp only [DividesByZero, Expr.exact, ← exact, ← exact'] at applied
      rw [← Token.applyBinary_eq_checked known] at applied
      exact applied
    · exact broke.of_operand rfl (List.forall_mem_singleton.mpr fits)
  · exact broke.of_operand rfl (List.forall_mem_nil _)

theorem Outcome.paren {opening closing : Token} {inner : Expr} {evaluation : Evaluation}
    (outcome : inner.Outcome evaluation) :
    (paren opening inner closing).Outcome evaluation := by
  rcases outcome.value_or_fault with ⟨value, rfl, fits, exact⟩ | ⟨fault, rfl, broke⟩
  · refine .value (everywhere_iff.mpr ⟨List.forall_mem_singleton.mpr fits, id, ?_⟩) exact
    exact fits.self.2
  · exact broke.of_operand rfl (List.forall_mem_nil _)

/-- **Every expression of arithmetic** evaluates to its exact value, or to the fault of the first
operator that breaks. -/
theorem Arithmetic.outcome {expr : Expr} (arithmetic : expr.Arithmetic) :
    expr.Outcome expr.evaluate := by
  induction expr with
  | number literal => exact .number literal
  | unary operator operand ih =>
    obtain ⟨inside, sign⟩ := everywhere_iff.mp arithmetic
    rw [evaluate_unary]
    exact .unary sign (ih (inside operand List.mem_cons_self))
  | binary left operator right ihLeft ihRight =>
    obtain ⟨inside, known⟩ := everywhere_iff.mp arithmetic
    obtain ⟨inLeft, inRight⟩ := List.forall_mem_cons.mp inside
    rw [evaluate_binary]
    exact .binary known (ihLeft inLeft) (ihRight (List.forall_mem_singleton.mp inRight))
  | paren opening inner closing ih =>
    obtain ⟨inside, -⟩ := everywhere_iff.mp arithmetic
    rw [evaluate_paren]
    exact .paren (ih (inside inner List.mem_cons_self))

/-- An expression that fits evaluates to its exact value. -/
theorem Arithmetic.evaluate_of_fits {expr : Expr} (arithmetic : expr.Arithmetic)
    (fits : expr.Fits) : ∃ value, expr.evaluate = .ok value ∧ value.toInt = expr.exact := by
  have outcome := arithmetic.outcome
  rcases outcome.value_or_fault with ⟨value, evaluated, -, exact⟩ | ⟨fault, -, broke⟩
  · exact ⟨value, evaluated, exact⟩
  · cases broke with
    | @fault earlier later broken operator inside first breaks own =>
      have member : broken ∈ expr.subexpressions := by
        rw [inside]
        exact List.mem_append_right _ List.mem_cons_self
      exact absurd (fits broken member) breaks.2

/-! ### The answer of an evaluation -/

/-- **Evaluation is exact integer arithmetic.** An expression of arithmetic has a value exactly if no
divisor in it is zero and every value in it is in range, and this is the exact value. Otherwise the
evaluation fails at the first operator, in the order in which they are applied, whose operands fit and
that has no result itself. -/
theorem evaluate_exact {expr : Expr} (arithmetic : expr.Arithmetic) :
    (∀ value, expr.evaluate = .ok value ↔ expr.Fits ∧ value.toInt = expr.exact) ∧
      (¬ expr.Fits → ∃ broken operator,
        expr.subexpressions.find? (·.Breaks) = some broken ∧ broken.operator? = some operator ∧
          expr.evaluate = .error ⟨broken.cause, operator.span⟩) := by
  have outcome := arithmetic.outcome
  generalize expr.evaluate = evaluation at outcome
  cases outcome with
  | value fits exact =>
    refine ⟨fun value => ⟨fun same => ?_, fun ⟨_, exact'⟩ => ?_⟩, fun unfit => absurd fits unfit⟩
    · cases same
      exact ⟨fits, exact⟩
    · exact congrArg Except.ok (Value.ext (exact.trans exact'.symm))
  | @fault earlier later broken operator inside first breaks own =>
    have member : broken ∈ expr.subexpressions := by
      rw [inside]
      exact List.mem_append_right _ List.mem_cons_self
    refine ⟨fun value => ⟨fun same => ?_, fun ⟨fits, _⟩ => ?_⟩, fun _ => ?_⟩
    · cases same
    · exact absurd (fits broken member) breaks.2
    · refine ⟨broken, operator, ?_, own, rfl⟩
      rw [List.find?_eq_some_iff_append]
      refine ⟨decide_eq_true breaks, earlier, later, inside, fun sub among => ?_⟩
      simpa using fun broke : sub.Breaks => broke.2 (first sub among)

/-- The first quotient of `(-2147483647 - 1) / -1 + 7 / 0`. -/
def leastNegated : Expr :=
  .binary
    (.paren ⟨.openParen, 0, "(", none⟩
      (.binary
        (.unary ⟨.minus, 1, "-", none⟩ (.number ⟨.number, 2, "2147483647", some .greatest⟩))
        ⟨.minus, 13, "-", none⟩
        (.number ⟨.number, 15, "1", some ⟨1, by decide, by decide⟩⟩))
      ⟨.closeParen, 16, ")", none⟩)
    ⟨.slash, 18, "/", none⟩
    (.unary ⟨.minus, 20, "-", none⟩
      (.number ⟨.number, 21, "1", some ⟨1, by decide, by decide⟩⟩))

/-- The sum `(-2147483647 - 1) / -1 + 7 / 0`; neither of its quotients has a result. -/
def twoQuotients : Expr :=
  .binary leastNegated ⟨.plus, 23, "+", none⟩
    (.binary (.number ⟨.number, 25, "7", some ⟨7, by decide, by decide⟩⟩) ⟨.slash, 27, "/", none⟩
      (.number ⟨.number, 29, "0", some .zero⟩))

theorem evaluate_exact_twoQuotients :
    twoQuotients.Arithmetic ∧ ¬ twoQuotients.Fits ∧
      twoQuotients.evaluate = .error ⟨.overflow, ⟨18, 1⟩⟩ := by
  have arithmetic : twoQuotients.Arithmetic := by decide
  have unfit : ¬ twoQuotients.Fits := by decide
  refine ⟨arithmetic, unfit, ?_⟩
  obtain ⟨broken, operator, first, own, evaluated⟩ := (evaluate_exact arithmetic).2 unfit
  have quotient : twoQuotients.subexpressions.find? (·.Breaks) = some leastNegated := by decide
  obtain rfl := Option.some.inj (quotient.symm.trans first)
  cases own
  exact evaluated

end Expr

end IntCalc
