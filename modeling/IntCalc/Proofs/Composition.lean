/-
**Lines put together from lines.**

Two faultless lines, each in parentheses, with an operator between them are a faultless line again,
as long as it keeps the limits (`parse_joined`). Its tree has the trees of both lines in it, shifted
to where the lines stand, so it evaluates to what the operator makes of the values of the lines; if
one of them fails, the new line fails with the fault of the first one that does, and the fault moves
as the line did (`answer_joined`).

The new line is not compared with the readings of the old ones. That a tree spells it can be seen
from the text: the old lines lex as before next to parentheses, since no run of digits or blanks goes
on across these (`lexes_joined`), and a tree that spells a line is the one that is read.
-/
import IntCalc.Proofs.Arithmetic
import IntCalc.Proofs.Diagnostics
import IntCalc.Proofs.Shifting

namespace IntCalc

/-! ### Joined lines -/

/-- Two lines in parentheses, with an operator between them. -/
def joined (first : String) (operator : Operator) (second : String) : String :=
  "(" ++ first ++ ")" ++ operator.symbol.toString ++ "(" ++ second ++ ")"

theorem toList_joined (first second : String) (operator : Operator) :
    (joined first operator second).toList =
      '(' :: (first.toList ++ ')' :: operator.symbol :: '(' :: (second.toList ++ [')'])) := by
  simp [joined]

/-- Two trees in parentheses, with an operator between them, where the lines of the trees have the
given numbers of bytes. -/
def Expr.joined (left : Expr) (operator : Operator) (right : Expr) (size size' : Nat) : Expr :=
  .binary (.paren (.ofSymbol '(' 0) (left.shift 1) (.ofSymbol ')' (size + 1)))
    (operator.token (size + 2))
    (.paren (.ofSymbol '(' (size + 3)) (right.shift (size + 4)) (.ofSymbol ')' (size + 4 + size')))

theorem Expr.leaves_joined (left : Expr) (operator : Operator) (right : Expr) (size size' : Nat) :
    (left.joined operator right size size').leaves =
      .ofSymbol '(' 0 :: (left.leaves.map (Token.shift 1) ++ .ofSymbol ')' (size + 1) ::
        operator.token (size + 2) :: .ofSymbol '(' (size + 3) ::
          (right.leaves.map (Token.shift (size + 4)) ++ [.ofSymbol ')' (size + 4 + size')])) := by
  simp [joined, leaves, shift, leaves_map]

/-! ### The tree of joined lines -/

/-- **Joined lines lex** to what the lines lex to, with the parentheses and the operator. -/
theorem lexes_joined {first second : String} (operator : Operator)
    (clean : (tokenize first).2 = []) (clean' : (tokenize second).2 = []) {left right : Expr}
    (leaves : left.leaves = significant first) (leaves' : right.leaves = significant second) :
    Lexes 0 (joined first operator second).toList
      (left.joined operator right first.utf8ByteSize second.utf8ByteSize).leaves := by
  have opening : '(' ∈ ['+', '-', '*', '/', '(', ')'] := by decide
  have closing : ')' ∈ ['+', '-', '*', '/', '(', ')'] := by decide
  -- whatever a line ends in, no run of it goes on into the parenthesis that follows
  have apart (front rest : List Char) : Text.Apart front (')' :: rest) :=
    .of_right (Text.forall_head_cons (by decide))
  have back := (Lexes.shifted clean' (first.utf8ByteSize + 4)).append
    (.symbol closing (.nil _)) (apart _ [])
  have middle : Lexes (first.utf8ByteSize + 1) _ _ :=
    .symbol closing (.symbol operator.symbol_mem (.symbol opening back))
  have start : first.utf8ByteSize + 1 = 1 + Text.byteLength first.toList := by
    rw [Nat.add_comm, Text.utf8ByteSize_eq_byteLength]
  rw [toList_joined, Expr.leaves_joined, leaves, leaves', Text.utf8ByteSize_eq_byteLength second]
  exact .symbol opening ((Lexes.shifted clean 1).append (start ▸ middle) (apart _ _))

/-- A tree of joined lines is one of the grammar if those of the lines are. -/
theorem Expr.Derives.joined {left right : Expr} (derived : left.Derives .expr)
    (derived' : right.Derives .expr) (operator : Operator) (size size' : Nat) :
    (left.joined operator right size size').Derives .expr := by
  obtain ⟨precedence, joins⟩ := operator.ofBinary?_token (size + 2)
  have first := derived.map (Token.kind_shift 1)
  have second := derived'.map (Token.kind_shift (size + 4))
  have firstOperand : Derives .unary (.paren (.ofSymbol '(' 0) _ (.ofSymbol ')' (size + 1))) :=
    .unaryOfPrimary (.paren rfl first rfl)
  have secondOperand :
      Derives .unary (.paren (.ofSymbol '(' (size + 3)) _ (.ofSymbol ')' (size + 4 + size'))) :=
    .unaryOfPrimary (.paren rfl second rfl)
  exact (Derives.binary joins (firstOperand.mono (Parser.rank_unary_le_chained precedence))
    (secondOperand.mono (Parser.rank_unary_le_category precedence))).mono
      (by cases precedence <;> decide)

/-- **Joined lines within the limits are parsed as the joined tree.** -/
theorem parse_joined {first second : String} (operator : Operator)
    (accepted : (parse first).diagnostics = []) (accepted' : (parse second).diagnostics = [])
    (shallow : max (1 + (parse first).root.nesting) (2 + (parse second).root.nesting) ≤ 255)
    (few : (parse first).root.operatorCount + (parse second).root.operatorCount ≤ 1023) :
    (parse (joined first operator second)).diagnostics = [] ∧
      (parse (joined first operator second)).root =
        (parse first).root.joined operator (parse second).root first.utf8ByteSize
          second.utf8ByteSize := by
  have spells := spells_of_accepted accepted
  have spells' := spells_of_accepted accepted'
  have clean := ((diagnostics_parse_eq_nil_iff first).mp accepted).1
  have clean' := ((diagnostics_parse_eq_nil_iff second).mp accepted').1
  obtain ⟨clean, leaves⟩ := (lexes_joined operator clean clean' spells.leaves spells'.leaves).line
  rw [String.ofList_toList] at clean leaves
  refine parse_of_spells clean
    ⟨spells.derives.joined spells'.derives operator _ _, leaves.symm, ?_, ?_⟩
  · simp only [Expr.joined, Expr.operatorCount, Expr.shift, Expr.operatorCount_map]
    omega
  · simp only [Expr.joined, Expr.nesting, Expr.shift, Expr.nesting_map]
    omega

/-! ### The answer to joined lines -/

/-- The joined tree evaluates the trees in their order and then applies the operator. -/
theorem Expr.evaluate_joined (left : Expr) (operator : Operator) (right : Expr) (size size' : Nat) :
    (left.joined operator right size size').evaluate = (do
      let first ← left.evaluate.mapError (Located.shift 1)
      let second ← right.evaluate.mapError (Located.shift (size + 4))
      operator.applyAt (size + 2) first second) := by
  rw [joined, evaluate_binary, evaluate_paren, evaluate_paren, evaluate_shift, evaluate_shift]
  simp only [Token.applyBinary_token]

/-- **Joined lines are answered with what the operator makes of the answers of the lines.** If one of
the lines fails, they fail with the fault of the first one that does, moved as the line is. Lines that
are not malformed fail in their evaluation only. -/
theorem answer_joined {first second : String} (operator : Operator)
    (accepted : (parse first).diagnostics = []) (accepted' : (parse second).diagnostics = [])
    (shallow : max (1 + (parse first).root.nesting) (2 + (parse second).root.nesting) ≤ 255)
    (few : (parse first).root.operatorCount + (parse second).root.operatorCount ≤ 1023) :
    match answer first, answer second with
    | .error (.runtime fault), _ =>
      answer (joined first operator second) = .error (.runtime (fault.shift 1))
    | .ok _, .error (.runtime fault) =>
      answer (joined first operator second) =
        .error (.runtime (fault.shift (first.utf8ByteSize + 4)))
    | .ok left, .ok right =>
      answer (joined first operator second) =
        (operator.applyAt (first.utf8ByteSize + 2) left right).mapError .runtime
    | .error (.malformed _), _ | .ok _, .error (.malformed _) => False := by
  obtain ⟨joinedAccepted, root⟩ := parse_joined operator accepted accepted' shallow few
  rw [answer_of_accepted joinedAccepted, root, Expr.evaluate_joined, answer_of_accepted accepted,
    answer_of_accepted accepted']
  cases (parse first).root.evaluate with
  | error fault => rfl
  | ok left =>
    cases (parse second).root.evaluate with
    | error fault => rfl
    | ok right => rfl

/-- A quotient whose divisor is a line that vanishes; the operator stands behind three bytes. -/
theorem answer_joined_vanishingDivisor :
    (parse "3").diagnostics = [] ∧ (parse "1 - 1").diagnostics = [] ∧
      max (1 + (parse "3").root.nesting) (2 + (parse "1 - 1").root.nesting) ≤ 255 ∧
      (parse "3").root.operatorCount + (parse "1 - 1").root.operatorCount ≤ 1023 ∧
      answer (joined "3" .div "1 - 1") = .error (.runtime ⟨.divisionByZero, ⟨3, 1⟩⟩) := by
  have first : answer "3" = .ok ⟨3, by decide, by decide⟩ := by decide +kernel
  have second : answer "1 - 1" = .ok ⟨0, by decide, by decide⟩ := by decide +kernel
  have answered := answer_joined .div (by decide +kernel : (parse "3").diagnostics = [])
    (by decide +kernel : (parse "1 - 1").diagnostics = []) (by decide +kernel) (by decide +kernel)
  rw [first, second] at answered
  exact ⟨by decide +kernel, by decide +kernel, by decide +kernel, by decide +kernel, answered⟩

end IntCalc
