/-
**Formulas and their written form.**

A formula is a numeral, a formula with a minus in front, or an operator between two formulas. It is
written with parentheses around every operator, and its written form is answered with the value of
the formula, or with the fault that its evaluation meets first (`answer_render`).

The proof follows the line through the program: the written form lexes to the leaves of a tree
(`lexes_spell`), the tree is one of the grammar that nests and counts as the formula does
(`derives_tree`, `nesting_tree`, `operatorCount_tree`), and it evaluates as the formula does
(`evaluate_tree`).
-/
import IntCalc.Answer
import IntCalc.Proofs.Arithmetic
import IntCalc.Proofs.Recognition

namespace IntCalc

/-- A formula of arithmetic. -/
inductive Formula where
  | number (value : Nat) (inRange : value ≤ 2147483647)
  | neg (operand : Formula)
  | binary (left : Formula) (operator : Operator) (right : Formula)

namespace Formula

/-! ### What formulas are -/

/-- The number of operators between formulas. -/
def operatorCount : Formula → Nat
  | number _ _ => 0
  | neg operand => operand.operatorCount
  | binary left _ right => left.operatorCount + 1 + right.operatorCount

/-- How far the written form nests; the right operand stands one level below the parentheses. -/
def nesting : Formula → Nat
  | number _ _ => 0
  | neg operand => 1 + operand.nesting
  | binary left _ right => 1 + max left.nesting (1 + right.nesting)

/-- The value of a formula: first the left operand, then the right one, then the operator. -/
def value : Formula → Except EvalFault Value
  | number value inRange => .ok ⟨value, by omega, by omega⟩
  | neg operand => do fitting (-(← operand.value).toInt)
  | binary left operator right => do
    let first ← left.value
    let second ← right.value
    operator.apply first second

/-- The characters of the written form. -/
def spell : Formula → List Char
  | number value _ => Nat.toDigits 10 value
  | neg operand => '-' :: operand.spell
  | binary left operator right =>
    '(' :: (left.spell ++ [' ', operator.symbol, ' '] ++ right.spell ++ [')'])

def render (formula : Formula) : String := String.ofList formula.spell

/-! ### The edges of the written form -/

theorem isBlank_eq_false_of_mem_toDigits {value : Nat} {char : Char}
    (member : char ∈ Nat.toDigits 10 value) : Text.isBlank char = false :=
  Text.isBlank_eq_false_of_isDigit (Nat.isDigit_of_mem_toDigits (by decide) (by decide) member)

/-- The written form opens with a character that is no blank. -/
theorem spell_eq_cons (formula : Formula) :
    ∃ first rest, formula.spell = first :: rest ∧ Text.isBlank first = false := by
  cases formula with
  | number value _ =>
    obtain ⟨first, rest, digits⟩ : ∃ first rest, Nat.toDigits 10 value = first :: rest :=
      List.exists_cons_of_ne_nil Nat.toDigits_ne_nil
    have inside : first ∈ Nat.toDigits 10 value := digits ▸ List.mem_cons_self
    exact ⟨first, rest, digits, isBlank_eq_false_of_mem_toDigits inside⟩
  | neg operand => exact ⟨_, _, rfl, by decide⟩
  | binary left operator right => exact ⟨_, _, rfl, by decide⟩

theorem isBlank_last_spell (formula : Formula) :
    ∀ last ∈ formula.spell.getLast?, Text.isBlank last = false := by
  intro last member
  induction formula with
  | number value _ => exact isBlank_eq_false_of_mem_toDigits (List.mem_of_getLast? member)
  | neg operand ih =>
    obtain ⟨first, rest, spelled, -⟩ := operand.spell_eq_cons
    rw [spell, spelled, List.getLast?_cons_cons, ← spelled] at member
    exact ih member
  | binary left operator right _ _ =>
    rw [spell, ← List.cons_append, List.getLast?_append] at member
    obtain rfl := Option.some.inj (Option.mem_def.mp member)
    decide

/-! ### The tree of the written form -/

def tree (position : Nat) : Formula → Expr
  | number value inRange =>
    .number ⟨.number, position, String.ofList (Nat.toDigits 10 value),
      some ⟨value, by omega, by omega⟩⟩
  | neg operand => .unary (.ofSymbol '-' position) (operand.tree (position + 1))
  | binary left operator right =>
    let middle := position + 1 + Text.byteLength left.spell
    .paren (.ofSymbol '(' position)
      (.binary (left.tree (position + 1)) (operator.token (middle + 1)) (right.tree (middle + 3)))
      (.ofSymbol ')' (middle + 3 + Text.byteLength right.spell))

/-- **The written form lexes to the leaves of its tree.** -/
theorem lexes_spell (formula : Formula) (position : Nat) :
    Lexes position formula.spell (formula.tree position).leaves := by
  induction formula generalizing position with
  | number value inRange =>
    refine .numeral position Nat.toDigits_ne_nil (fun char member => ?_) ?_
    · exact Nat.isDigit_of_mem_toDigits (by decide) (by decide) member
    · rw [spell, Value.ofDigits?, Nat.ofDigitChars_ten_toDigits]
      exact Value.ofInt?_eq_some_iff.mpr rfl
  | neg operand ih => exact .symbol (by decide) (ih (position + 1))
  | binary left operator right ihLeft ihRight =>
    have closing : Lexes (position + 1 + Text.byteLength left.spell + 3 +
        Text.byteLength right.spell) [')'] [.ofSymbol ')' _] := .symbol (by decide) (.nil _)
    have second := (ihRight _).append closing (.of_right (Text.forall_head_cons (by decide)))
    have opens : ∀ first ∈ (right.spell ++ [')']).head?, Text.isBlank first = false := by
      obtain ⟨char, rest, spelled, notBlank⟩ := right.spell_eq_cons
      rw [spelled]
      exact Text.forall_head_cons notBlank
    have joined := (Lexes.symbol operator.symbol_mem (second.space opens)).space
      (Text.forall_head_cons operator.isBlank_symbol)
    have first := (ihLeft _).append joined <| .of_ne fun last member =>
      Text.forall_head_cons <| by
        rw [left.isBlank_last_spell last member]
        decide
    have whole := Lexes.symbol (by decide : '(' ∈ ['+', '-', '*', '/', '(', ')']) first
    simpa [spell, tree, Expr.leaves, Operator.token] using whole

theorem derives_tree (formula : Formula) (position : Nat) :
    (formula.tree position).Derives .unary := by
  induction formula generalizing position with
  | number value _ => exact .unaryOfPrimary (.number rfl)
  | neg operand ih => exact .signed (.inr rfl) (ih _)
  | binary left operator right ihLeft ihRight =>
    obtain ⟨precedence, joins⟩ := operator.ofBinary?_token (position + 1 +
      Text.byteLength left.spell + 1)
    have first := (ihLeft (position + 1)).mono (Parser.rank_unary_le_chained precedence)
    have second := (ihRight (position + 1 + Text.byteLength left.spell + 3)).mono
      (Parser.rank_unary_le_category precedence)
    have inner : Expr.Derives .expr _ :=
      (Expr.Derives.binary joins first second).mono (by cases precedence <;> decide)
    exact .unaryOfPrimary (.paren rfl inner rfl)

theorem operatorCount_tree (formula : Formula) (position : Nat) :
    (formula.tree position).operatorCount = formula.operatorCount := by
  induction formula generalizing position with
  | number value _ => rfl
  | neg operand ih => exact ih _
  | binary left operator right ihLeft ihRight =>
    simp only [tree, Expr.operatorCount, ihLeft, ihRight, operatorCount]

theorem nesting_tree (formula : Formula) (position : Nat) :
    (formula.tree position).nesting = formula.nesting := by
  induction formula generalizing position with
  | number value _ => rfl
  | neg operand ih => simp only [tree, Expr.nesting, ih, nesting]
  | binary left operator right ihLeft ihRight =>
    simp only [tree, Expr.nesting, ihLeft, ihRight, nesting]

/-- **The tree evaluates as the formula does**, but for the places of faults. -/
theorem evaluate_tree (formula : Formula) (position : Nat) :
    (formula.tree position).evaluate.mapError Located.value = formula.value := by
  induction formula generalizing position with
  | number value _ => rfl
  | neg operand ih =>
    rw [tree, Expr.evaluate_unary, value, ← ih (position + 1)]
    cases (operand.tree (position + 1)).evaluate with
    | error fault => rfl
    | ok operand =>
      show ((Token.ofSymbol '-' position).checked operand.neg?).mapError Located.value = _
      rw [Value.neg?, Token.checked_ofInt?, mapError_value_located]
      rfl
  | binary left operator right ihLeft ihRight =>
    rw [tree, Expr.evaluate_paren, Expr.evaluate_binary, value, ← ihLeft (position + 1),
      ← ihRight (position + 1 + Text.byteLength left.spell + 3)]
    cases (left.tree (position + 1)).evaluate with
    | error fault => rfl
    | ok first =>
      cases (right.tree (position + 1 + Text.byteLength left.spell + 3)).evaluate with
      | error fault => rfl
      | ok second =>
        show ((operator.token _).applyBinary first second).mapError Located.value = _
        rw [Token.applyBinary_token, Operator.applyAt, mapError_value_located]
        rfl

/-! ### The answer to the written form -/

/-- The tree of a formula is one of the grammar, over the tokens of the written form. -/
theorem tree_spelled (formula : Formula) :
    (tokenize formula.render).2 = [] ∧ (formula.tree 0).Derives .expr ∧
      (formula.tree 0).leaves = significant formula.render := by
  obtain ⟨clean, leaves⟩ := (formula.lexes_spell 0).line
  exact ⟨clean, (formula.derives_tree 0).mono (by decide), leaves.symm⟩

/-- The written form of a formula within the limits is parsed as its tree. -/
theorem parse_render (formula : Formula) (few : formula.operatorCount ≤ 1024)
    (shallow : formula.nesting ≤ 255) :
    (parse formula.render).diagnostics = [] ∧ (parse formula.render).root = formula.tree 0 := by
  obtain ⟨clean, derived, leaves⟩ := formula.tree_spelled
  refine parse_of_spells clean ⟨derived, leaves, ?_, ?_⟩
  · rw [operatorCount_tree]
    exact few
  · rw [nesting_tree]
    exact shallow

/-- **The written form of a formula is answered with its value**, or with the fault that its
evaluation meets first; it is never malformed. -/
theorem answer_render (formula : Formula) (few : formula.operatorCount ≤ 1024)
    (shallow : formula.nesting ≤ 255) :
    match formula.value with
    | .ok value => answer formula.render = .ok value
    | .error fault => ∃ span, answer formula.render = .error (.runtime ⟨fault, span⟩) := by
  obtain ⟨accepted, root⟩ := formula.parse_render few shallow
  have answered : answer formula.render = (formula.tree 0).evaluate.mapError .runtime := by
    rw [answer, ParsedLine.answer, accepted, root]
  rw [← formula.evaluate_tree 0, answered]
  cases (formula.tree 0).evaluate with
  | ok value => rfl
  | error fault => exact ⟨fault.span, rfl⟩

/-- A quotient whose divisor adds up to zero. -/
def vanishingQuotient : Formula :=
  .neg (.binary (.number 7 (by decide)) .div
    (.binary (.neg (.number 3 (by decide))) .add (.number 3 (by decide))))

theorem answer_render_vanishingQuotient :
    vanishingQuotient.operatorCount ≤ 1024 ∧ vanishingQuotient.nesting ≤ 255 ∧
      ∃ span, answer "-(7 / (-3 + 3))" = .error (.runtime ⟨.divisionByZero, span⟩) :=
  ⟨by decide, by decide, answer_render vanishingQuotient (by decide) (by decide)⟩

end Formula

end IntCalc
