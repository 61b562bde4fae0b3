/-
**Faults are recorded in the order of the line.**

A parser records a fault at the token that comes next, and the token that comes next never stands
before the one that came next earlier. So no fault starts behind the place that has been reached, and
none before one that was recorded earlier. This holds step by step (`Step.inOrder`), and so along
every row of steps (`Moves.inOrder`), whatever the tokens are.
-/
import IntCalc.Proofs.Parser.Steps

namespace IntCalc.Parser

/-- **The tokens that are left and the faults so far are in order.** -/
structure InOrder (parser : Parser) : Prop where
  tokens : parser.rest.Pairwise (·.position ≤ ·.position)
  within : ∀ token ∈ parser.rest, token.position ≤ parser.stop
  faults : parser.faults.toList.Pairwise (·.span.start ≤ ·.span.start)
  /-- No fault starts behind the token that comes next. -/
  passed : ∀ fault ∈ parser.faults.toList, fault.span.start ≤ parser.current.position

namespace InOrder

variable {parser : Parser}

theorem position_current_le (inOrder : parser.InOrder) {token : Token} (left : token ∈ parser.rest) :
    parser.current.position ≤ token.position := by
  obtain ⟨first, others, rest⟩ := List.exists_cons_of_ne_nil (List.ne_nil_of_mem left)
  rw [current_of_rest rest]
  have ordered := inOrder.tokens
  rw [rest] at ordered left
  rcases List.mem_cons.mp left with rfl | later
  · exact Nat.le_refl _
  · exact List.rel_of_pairwise_cons ordered later

theorem position_current_le_stop (inOrder : parser.InOrder) :
    parser.current.position ≤ parser.stop := by
  by_cases spent : parser.rest = []
  · rw [current_of_rest_nil spent]
    exact Nat.le_refl _
  · exact inOrder.within parser.current (current_mem spent)

/-- The token behind the one that comes next does not stand before it. -/
theorem position_current_le_advance (inOrder : parser.InOrder) :
    parser.current.position ≤ parser.advance.current.position := by
  by_cases spent : parser.advance.rest = []
  · rw [current_of_rest_nil spent]
    exact inOrder.position_current_le_stop
  · exact inOrder.position_current_le (List.mem_of_mem_tail (current_mem spent))

/-! ### Moves -/

theorem advance (inOrder : parser.InOrder) : parser.advance.InOrder where
  tokens := inOrder.tokens.sublist parser.rest.tail_sublist
  within := fun token member => inOrder.within token (List.mem_of_mem_tail member)
  faults := inOrder.faults
  passed := fun fault member =>
    Nat.le_trans (inOrder.passed fault member) inOrder.position_current_le_advance

/-- A fault at the token that comes next is in order behind all others. -/
theorem report (inOrder : parser.InOrder) (fault : ParseFault) {span : Span}
    (here : span.start = parser.current.position) : (parser.report fault span).InOrder := by
  cases halted : parser.halted with
  | true => rwa [report_of_halted halted]
  | false =>
    have added : (parser.report fault span).faults.toList =
        parser.faults.toList ++ [⟨fault, span⟩] := by
      rw [faults_report halted, Array.toList_push]
    constructor
    · simpa using inOrder.tokens
    · simpa using inOrder.within
    · rw [added, List.pairwise_append]
      refine ⟨inOrder.faults, List.pairwise_singleton _ _, fun earlier member last isLast => ?_⟩
      obtain rfl := List.mem_singleton.mp isLast
      rw [here]
      exact inOrder.passed earlier member
    · rw [added, current_report]
      intro other member
      rcases List.mem_append.mp member with earlier | isLast
      · exact inOrder.passed other earlier
      · obtain rfl := List.mem_singleton.mp isLast
        exact Nat.le_of_eq here

theorem halt (inOrder : parser.InOrder) (limit : ParseFault) : (parser.halt limit).InOrder := by
  have reported := inOrder.report limit parser.current.start_span
  refine ⟨List.Pairwise.nil, List.forall_mem_nil _, reported.faults, fun fault member => ?_⟩
  rw [position_current_halt]
  calc
    fault.span.start ≤ (parser.report limit parser.current.span).current.position :=
      reported.passed fault member
    _ ≤ (parser.report limit parser.current.span).stop := reported.position_current_le_stop
    _ = parser.stop := stop_report ..

end InOrder

/-! ### Rows of steps -/

theorem Step.inOrder {before after : Parser} {leaves : List Token}
    (step : Step before leaves after) (inOrder : before.InOrder) : after.InOrder := by
  cases step with
  | take _ => exact inOrder.advance
  | takeOperator _ _ =>
    obtain ⟨tokens, within, faults, passed⟩ := inOrder.advance
    exact ⟨tokens, within, faults, passed⟩
  | drop _ _ _ => exact (inOrder.report _ (Token.start_span _)).advance
  | supply _ => exact inOrder.report _ (Token.start_span _)
  | tooDeep _ | tooLong _ => exact inOrder.halt _

/-- **Faults are recorded in the order of the line.** -/
theorem Moves.inOrder {start finish : Parser} {leaves : List Token}
    (moves : Moves start leaves finish) (inOrder : start.InOrder) : finish.InOrder := by
  induction moves with
  | refl => exact inOrder
  | step _ last ih => exact last.inOrder ih

end IntCalc.Parser
