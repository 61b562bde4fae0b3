/-
**Every reading makes progress.**

An operand takes a token, if there is one: a number, a sign, a parenthesis, or whatever it drops
because it is none of these (`Reads.length_rest_lt_of_operand`). What follows an operand gives no
tokens back, so an expression takes a token as well, and a parser that goes on reading expressions
comes to the end of the line.

`Progress` puts this together with what is counted on the way. It also holds of a parser that reads
nothing: one that has halted, one that halts for lack of levels, and one that drops a token.
-/
import IntCalc.Proofs.Parser.Accounts
import IntCalc.Proofs.Parser.Trees

namespace IntCalc.Parser

/-! ### What is kept -/

/-- No step undoes a halt. -/
theorem Step.halted {before after : Parser} {leaves : List Token} (step : Step before leaves after)
    (halted : before.halted = true) : after.halted = true := by
  cases step with
  | take _ | takeOperator _ _ => exact halted
  | drop _ _ _ | supply _ => simpa using halted
  | tooDeep _ | tooLong _ => rfl

theorem Moves.halted {start finish : Parser} {leaves : List Token}
    (moves : Moves start leaves finish) (halted : start.halted = true) : finish.halted = true := by
  induction moves with
  | refl => exact halted
  | step _ last ih => exact last.halted ih

theorem Reads.length_rest_le {levels : Nat} {goal : Goal} {before after : Parser} {expr : Expr}
    (reads : Reads levels goal before expr after) (ready : goal.Ready before) :
    after.rest.length ≤ before.rest.length := by
  obtain ⟨_, _, moves⟩ := reads.moves ready
  exact moves.rest_sublist.length_le

/-! ### Tokens are taken -/

theorem length_rest_advance_lt_of_rest {parser : Parser} (more : parser.rest ≠ []) :
    parser.advance.rest.length < parser.rest.length := by
  obtain ⟨first, others, rest⟩ := List.exists_cons_of_ne_nil more
  simp [rest]

/-- **An operand takes a token**, also where it only drops it. -/
theorem Reads.length_rest_lt_of_operand {levels : Nat} {before after : Parser} {expr : Expr}
    (reads : Reads levels .operand before expr after) (running : before.halted = false)
    (more : before.rest ≠ []) : after.rest.length < before.rest.length := by
  have taken := length_rest_advance_lt_of_rest more
  cases reads with
  | number next => exact taken
  | absent notNumber notOpen notSign => simpa using taken
  | signed next inner => exact Nat.lt_of_le_of_lt (inner.length_rest_le running) taken
  | closed next inner closes =>
    exact Nat.lt_of_le_of_lt (Nat.le_trans (length_rest_advance_le _) (inner.length_rest_le running))
      taken
  | unclosed next inner lacks =>
    rw [rest_report]
    exact Nat.lt_of_le_of_lt (inner.length_rest_le running) taken

/-- **An expression takes a token**, since its leading operand does. -/
theorem Reads.length_rest_lt_of_expression {levels : Nat} {outer : Precedence}
    {before after : Parser} {expr : Expr}
    (reads : Reads levels (.expression outer) before expr after) (running : before.halted = false)
    (more : before.rest ≠ []) : after.rest.length < before.rest.length := by
  cases reads with
  | expression leading goesOn =>
    have chained := goesOn.length_rest_le (leading.haltedAtEnd running)
    exact Nat.lt_of_le_of_lt chained (leading.length_rest_lt_of_operand running more)
  | tooDeep => exact List.length_pos_iff.mpr more

/-! ### Progress -/

/-- **What an expression does to a parser**: it goes on step by step, takes at least one token if
there is one, and counts the operators of the tree. -/
structure Progress (before : Parser) (tree : Expr) (after : Parser) : Prop where
  moves : ∃ leaves, Moves before leaves after
  shorter : before.rest ≠ [] → after.rest.length < before.rest.length
  operators : after.operators = before.operators + tree.operatorCount
  few : after.operators ≤ maxOperators

namespace Progress

variable {parser : Parser} {token : Token} (few : parser.operators ≤ maxOperators)

include few

/-- A reading that starts with nothing read makes progress if it takes a token. -/
theorem of_reads {levels : Nat} {goal : Goal} {after : Parser} {tree : Expr}
    (reads : Reads levels goal parser tree after) (ready : goal.Ready parser)
    (fresh : goal.operatorCount = 0)
    (shorter : parser.rest ≠ [] → after.rest.length < parser.rest.length) :
    parser.Progress tree after := by
  obtain ⟨leaves, -, moves⟩ := reads.moves ready
  have counted := reads.operators_eq
  rw [fresh, Nat.add_zero] at counted
  exact ⟨⟨leaves, moves⟩, shorter, counted, reads.operators_le few⟩

theorem of_halted (spent : parser.rest = []) : parser.Progress (.number token) parser :=
  ⟨⟨_, .refl⟩, fun more => absurd spent more, rfl, few⟩

theorem of_tooDeep (running : parser.halted = false) :
    parser.Progress (.number token) (parser.halt .tooDeep) := by
  refine ⟨⟨_, .single (.tooDeep running)⟩, fun more => List.length_pos_iff.mpr more, ?_, ?_⟩
  · rw [operators_halt, Expr.operatorCount, Nat.add_zero]
  · rwa [operators_halt]

theorem of_drop (running : parser.halted = false) (notNumber : parser.current.kind ≠ .number)
    (notOpen : parser.current.kind ≠ .openParen) :
    parser.Progress (.number token)
      (parser.report (.expectedExpression parser.current.kind) parser.current.span).advance := by
  refine ⟨⟨_, .single (.drop running notNumber notOpen)⟩, fun more => ?_, ?_, ?_⟩
  · simpa using length_rest_advance_lt_of_rest more
  · rw [operators_advance, operators_report, Expr.operatorCount, Nat.add_zero]
  · rwa [operators_advance, operators_report]

end Progress

end IntCalc.Parser
