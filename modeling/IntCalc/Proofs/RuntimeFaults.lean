/-
**A fault of an evaluation points at the operator that fails.**

When the evaluation of a line fails, the fault stands at a single character of the line. It is the
character of an operator in the tree, of one expression only, and this expression fails for the
reason that the fault gives: its divisor evaluates to zero, or its operands have values and the
exact result is out of range (`runtime_points_at_operator`).

That the expression fails follows from being the first one that breaks: its operands fit, so they
evaluate to their exact values (`Arithmetic.evaluate_of_fits`). The place is that of a token of the
line, and an operator is written by the one character that its kind allows. No other expression of
the tree has its operator there, since the operators of a tree are leaves at different places
(`eq_of_operator?`).
-/
import IntCalc.Proofs.Correspondence
import IntCalc.Proofs.Diagnostics
import IntCalc.Proofs.Partition
import IntCalc.Proofs.Reports
import Mathlib.Data.List.Perm.Subperm

namespace IntCalc

namespace Expr

/-! ### Operators without a result -/

/-- An exact result is no value. -/
def OutOfRange (exact : Int) : Prop := exact < -2147483648 ∨ 2147483647 < exact

/-- **The operator of an expression has no result**: the character of the operator, and why. -/
inductive Fails : Expr → Char → EvalFault → Prop
  | divisionByZero {left right : Expr} {operator : Token} {divisor : Value}
      (divides : operator.kind = .slash) (evaluated : right.evaluate = .ok divisor)
      (zero : divisor.toInt = 0) : Fails (.binary left operator right) '/' .divisionByZero
  | overflow {left right : Expr} {operator : Token} {first second : Value} {char : Char}
      (evaluatedLeft : left.evaluate = .ok first) (evaluatedRight : right.evaluate = .ok second)
      (outside : OutOfRange (operator.exactBinary first.toInt second.toInt)) :
      Fails (.binary left operator right) char .overflow
  | negation {operator : Token} {operand : Expr} {value : Value} (negates : operator.kind = .minus)
      (evaluated : operand.evaluate = .ok value) (outside : OutOfRange (-value.toInt)) :
      Fails (.unary operator operand) '-' .overflow

theorem outOfRange_of_not {expr : Expr} (defined : ¬ expr.DividesByZero) (none : ¬ expr.HasResult) :
    OutOfRange expr.exact := by
  unfold OutOfRange
  by_contra inside
  exact none ⟨defined, by omega, by omega⟩

/-- **An operator that breaks fails**, and for the cause that is given, if its character is that of
its kind. -/
theorem Breaks.fails {expr : Expr} {operator : Token} {char : Char} (arithmetic : expr.Arithmetic)
    (breaks : expr.Breaks) (own : expr.operator? = some operator)
    (written : operator.kind.HasLexeme [char]) : expr.Fails char expr.cause := by
  obtain ⟨fit, none⟩ := breaks
  obtain ⟨operands, proper⟩ := everywhere_iff.mp arithmetic
  cases expr with
  | number literal | paren opening inner closing => cases own
  | unary sign operand =>
    cases own
    have operandArithmetic : operand.Arithmetic := operands operand List.mem_cons_self
    obtain ⟨value, evaluated, exact⟩ :=
      operandArithmetic.evaluate_of_fits (fit operand List.mem_cons_self)
    have noQuotient : ¬ (Expr.unary operator operand).DividesByZero := id
    have outside := outOfRange_of_not noQuotient none
    rcases proper with plus | minus
    · -- the value of the operand is in range, and a plus does not change it
      rw [Expr.exact, Token.exactSign, plus, if_neg (by decide), ← exact] at outside
      have least := value.least_le
      have greatest := value.le_greatest
      unfold OutOfRange at outside
      omega
    · rw [minus] at written
      obtain rfl : char = '-' := (List.cons.inj written).1
      rw [Expr.exact, Token.exactSign, if_pos minus, ← exact] at outside
      rw [cause, if_neg noQuotient]
      exact .negation minus evaluated outside
  | binary left sign right =>
    cases own
    obtain ⟨fitsLeft, others⟩ := List.forall_mem_cons.mp fit
    have leftArithmetic : left.Arithmetic := operands left List.mem_cons_self
    have rightArithmetic : right.Arithmetic :=
      operands right (List.mem_cons_of_mem _ List.mem_cons_self)
    obtain ⟨first, evaluatedLeft, exactLeft⟩ := leftArithmetic.evaluate_of_fits fitsLeft
    obtain ⟨second, evaluatedRight, exactRight⟩ :=
      rightArithmetic.evaluate_of_fits (List.forall_mem_singleton.mp others)
    by_cases zero : (Expr.binary left operator right).DividesByZero
    · obtain ⟨slash, isZero⟩ := zero
      rw [slash] at written
      obtain rfl : char = '/' := (List.cons.inj written).1
      rw [cause, if_pos ⟨slash, isZero⟩]
      exact .divisionByZero slash evaluatedRight (exactRight.trans isZero)
    · have outside := outOfRange_of_not zero none
      rw [Expr.exact, ← exactLeft, ← exactRight] at outside
      rw [cause, if_neg zero]
      exact .overflow evaluatedLeft evaluatedRight outside

/-! ### The place of an operator -/

/-- The operators of a tree are some of its leaves, in another order. -/
theorem operators_subperm_leaves (expr : Expr) : expr.operators.Subperm expr.leaves := by
  induction expr with
  | number literal => exact List.nil_subperm
  | unary operator operand ih =>
    have own : (unary operator operand).operators = operand.operators ++ [operator] := by
      simp [operators_eq (unary operator operand), operands, operator?]
    rw [own]
    exact (List.perm_append_singleton operator _).subperm.trans
      ((List.subperm_cons operator).mpr ih)
  | binary left operator right ihLeft ihRight =>
    have own : (binary left operator right).operators =
        left.operators ++ (right.operators ++ [operator]) := by
      simp [operators_eq (binary left operator right), operands, operator?]
    rw [own]
    have behind := (List.subperm_cons operator).mpr ihRight
    exact ihLeft.append ((List.perm_append_singleton operator _).subperm.trans behind)
  | paren opening inner closing ih =>
    have own : (paren opening inner closing).operators = inner.operators := by
      simp [operators_eq (paren opening inner closing), operands, operator?]
    rw [own]
    exact ih.trans ((List.sublist_append_left _ _).trans (List.sublist_cons_self _ _)).subperm

/-- **The place of an operator tells its expression** in a tree whose leaves are at different
places. -/
theorem eq_of_operator? {expr sub sub' : Expr} {operator operator' : Token}
    (apart : expr.leaves.Pairwise (·.position < ·.position)) (inside : sub ∈ expr.subexpressions)
    (inside' : sub' ∈ expr.subexpressions) (own : sub.operator? = some operator)
    (own' : sub'.operator? = some operator') (same : operator.position = operator'.position) :
    sub = sub' := by
  obtain ⟨row, reordered, kept⟩ := expr.operators_subperm_leaves
  have differ : row.Pairwise fun first second => first.position ≠ second.position :=
    (apart.imp Nat.ne_of_lt).sublist kept
  rw [reordered.pairwise_iff Ne.symm, operators, List.pairwise_filterMap] at differ
  by_contra distinct
  have symmetric : Std.Symm fun first second : Expr => ∀ token, first.operator? = some token →
      ∀ token', second.operator? = some token' → token.position ≠ token'.position :=
    ⟨fun _ _ holds token owned token' owned' => (holds token' owned' token owned).symm⟩
  exact differ.forall inside inside' distinct operator own operator' own' same

end Expr

/-! ### Tokens in their text -/

/-- The part of a text over which the span of one of its tokens goes is the text of the token. -/
theorem Token.slice?_of_mem_scan {text : List Char} {token : Token} (member : token ∈ scan 0 text) :
    Text.slice? text token.span = some token.text.toList := by
  obtain ⟨front, back, whole, place⟩ := exists_parts_of_mem_scan member
  have span : token.span = ⟨Text.byteLength front, Text.byteLength token.text.toList⟩ := by
    rw [Token.span, place, Nat.zero_add, Text.utf8ByteSize_eq_byteLength]
  rw [span, whole]
  exact Text.slice?_append front token.text.toList back

/-- An operator is written by one character. -/
theorem Expr.IsArithmetic.exists_symbol {expr : Expr} {operator : Token}
    (proper : expr.IsArithmetic) (own : expr.operator? = some operator)
    (lexeme : operator.kind.HasLexeme operator.text.toList) :
    ∃ char ∈ ['+', '-', '*', '/'], operator.text.toList = [char] := by
  have known : operator.kind = .plus ∨ operator.kind = .minus ∨ operator.kind = .star ∨
      operator.kind = .slash := by
    cases expr with
    | number literal | paren opening inner closing => cases own
    | unary sign operand =>
      cases own
      exact proper.imp_right .inl
    | binary left sign right =>
      cases own
      exact proper
  rcases known with kind | kind | kind | kind <;> rw [kind] at lexeme
  · exact ⟨'+', by decide, lexeme⟩
  · exact ⟨'-', by decide, lexeme⟩
  · exact ⟨'*', by decide, lexeme⟩
  · exact ⟨'/', by decide, lexeme⟩

/-! ### Faults of a line -/

/-- **A fault points at an operator of a line**: at one character, which is the text of the operator
of an expression in the tree of the line, and of no other expression. The expression fails as the
fault says. -/
structure Located.PointsAt (fault : Located EvalFault) (text : String) (failing : Expr)
    (operator : Token) (char : Char) : Prop where
  symbol : char ∈ ['+', '-', '*', '/']
  single : fault.span.length = 1
  marked : Text.slice? text.toList fault.span = some [char]
  inside : failing ∈ (parse text).root.subexpressions
  leaf : operator ∈ (parse text).root.leaves
  own : failing.operator? = some operator
  here : operator.span = fault.span
  written : operator.kind = .ofChar char ∧ operator.text = String.ofList [char]
  only : ∀ other ∈ (parse text).root.subexpressions, ∀ token, other.operator? = some token →
    token.position = fault.span.start → other = failing
  fails : failing.Fails char fault.value

theorem byteLength_symbol {char : Char} (symbol : char ∈ ['+', '-', '*', '/']) :
    Text.byteLength [char] = 1 := by
  simp only [List.mem_cons, List.not_mem_nil, or_false] at symbol
  rcases symbol with rfl | rfl | rfl | rfl <;> rfl

/-- **A fault of the evaluation of a line points at the operator that fails.** -/
theorem runtime_points_at_operator {text : String} {fault : Located EvalFault}
    (failed : answer text = .error (.runtime fault)) :
    ∃ failing operator char, fault.PointsAt text failing operator char := by
  obtain ⟨failing, inside, breaks, operator, given, own, rfl⟩ := exists_broken_of_runtime failed
  have arithmetic : failing.Arithmetic := (arithmetic_root text).of_mem inside
  have leaves := (spells_of_accepted (accepted_of_runtime failed).1).leaves
  have scanned : operator ∈ Token.scan 0 text.toList := by
    rw [significant_eq_scan] at given
    exact (List.mem_filter.mp given).1
  have lexeme := Token.hasLexeme_of_mem_scan scanned
  obtain ⟨char, symbol, written⟩ := arithmetic.self.exists_symbol own lexeme
  have spelled : operator.text = String.ofList [char] := by rw [← written, String.ofList_toList]
  rw [written] at lexeme
  have apart : (parse text).root.leaves.Pairwise (·.position < ·.position) := by
    rw [leaves]
    exact strictly_significant text
  refine ⟨failing, operator, char, symbol, ?_, ?_, inside, ?_, own, rfl,
    ⟨(Token.Kind.hasLexeme_iff.mp lexeme).1.symm, spelled⟩, ?_, breaks.fails arithmetic own lexeme⟩
  · rw [Token.span, Text.utf8ByteSize_eq_byteLength, written]
    exact byteLength_symbol symbol
  · rw [Token.slice?_of_mem_scan scanned, written]
  · rw [leaves]
    exact given
  · intro other inside' token own' same
    exact Expr.eq_of_operator? apart inside' inside own' own same

/-- Two operators of `4 * -(-2147483647 - 1) / 0` have no result; the sign fails first. A wide blank
puts it two bytes further on than its column. -/
theorem runtime_points_at_operator_leastNegated :
    answer "4\u2003* -(-2147483647 - 1) / 0" = .error (.runtime ⟨.overflow, ⟨6, 1⟩⟩) ∧
      ∃ failing operator char, Located.PointsAt ⟨.overflow, ⟨6, 1⟩⟩
        "4\u2003* -(-2147483647 - 1) / 0" failing operator char := by
  have failed : answer "4\u2003* -(-2147483647 - 1) / 0" =
      .error (.runtime ⟨.overflow, ⟨6, 1⟩⟩) := by decide +kernel
  exact ⟨failed, runtime_points_at_operator failed⟩

end IntCalc
