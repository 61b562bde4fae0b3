/-
**Where leaves and faults stand.**

The tokens that a parser has not yet taken, followed by the one for the end of the line, are pending
(`Parser.pending`). The leaves that a reading leaves behind and the tokens that are pending make up
one row, in which no token starts before the one in front of it has stopped. Every step keeps the row
(`Step.inRow`): a token that is taken only changes sides, and one that is put in takes no bytes and
stands where a pending token starts (`InRow.insert`). So it has no place of its own, and whatever
holds of the places of the tokens of a line holds of those of all leaves (`Moves.inRow`).

A fault is recorded at the token that comes next, so it has the span of a token that was pending
(`Moves.span_of_mem_faults`).
-/
import IntCalc.Proofs.Parser.Accounts

namespace IntCalc

/-- A token stops before another starts, or where it does. -/
abbrev Token.Before (first second : Token) : Prop := first.span.stop ≤ second.position

namespace Parser

/-! ### Rows of tokens -/

/-- Tokens stand one behind the other, and something holds of all places where one starts or stops. -/
structure InRow (holds : Nat → Prop) (row : List Token) : Prop where
  ordered : row.Pairwise Token.Before
  places : ∀ token ∈ row, holds token.position ∧ holds token.span.stop

namespace InRow

variable {holds : Nat → Prop}

theorem sublist {row shorter : List Token} (inRow : InRow holds row)
    (fewer : shorter.Sublist row) : InRow holds shorter :=
  ⟨inRow.ordered.sublist fewer, fun token member => inRow.places token (fewer.subset member)⟩

/-- **A token without bytes may be put in** where another one starts. -/
theorem insert {front behind : List Token} {token added : Token}
    (inRow : InRow holds (front ++ token :: behind)) (here : added.span = .empty token.position) :
    InRow holds (front ++ added :: token :: behind) := by
  have start : added.position = token.position := congrArg Span.start here
  have stop : added.span.stop = token.position := by rw [here, Span.stop, Span.empty, Nat.add_zero]
  obtain ⟨ordered, places⟩ := inRow
  constructor
  · obtain ⟨inFront, back, across⟩ := List.pairwise_append.mp ordered
    obtain ⟨after, -⟩ := List.pairwise_cons.mp back
    refine List.pairwise_append.mpr ⟨inFront, List.pairwise_cons.mpr ⟨?_, back⟩, ?_⟩
    · refine List.forall_mem_cons.mpr ⟨Nat.le_of_eq stop, fun later member => ?_⟩
      calc
        added.span.stop = token.position := stop
        _ ≤ token.span.stop := token.span.start_le_stop
        _ ≤ later.position := after later member
    · intro earlier member
      refine List.forall_mem_cons.mpr ⟨?_, across earlier member⟩
      calc
        earlier.span.stop ≤ token.position := across earlier member token List.mem_cons_self
        _ = added.position := start.symm
  · intro other member
    rcases List.mem_append.mp member with inFront | back
    · exact places other (List.mem_append_left _ inFront)
    · rcases List.mem_cons.mp back with rfl | back
      · have place := (places token (List.mem_append_right _ List.mem_cons_self)).1
        rw [start, stop]
        exact ⟨place, place⟩
      · exact places other (List.mem_append_right _ back)

end InRow

/-! ### Pending tokens -/

variable {before after start finish : Parser} {leaves : List Token}

/-- The tokens not yet taken, with the one for the end of the line. -/
def pending (parser : Parser) : List Token := parser.rest ++ [.endOfFile parser.stop]

theorem exists_pending_eq_cons (parser : Parser) :
    ∃ others, parser.pending = parser.current :: others := by
  cases rest : parser.rest with
  | nil => exact ⟨[], by rw [pending, current_of_rest_nil rest, rest, List.nil_append]⟩
  | cons first others => exact ⟨_, by rw [pending, current_of_rest rest, rest]; rfl⟩

theorem current_mem_pending (parser : Parser) : parser.current ∈ parser.pending := by
  obtain ⟨others, pending⟩ := parser.exists_pending_eq_cons
  rw [pending]
  exact List.mem_cons_self

theorem pending_eq_cons_advance {parser : Parser} (more : parser.current.kind ≠ .endOfFile) :
    parser.pending = parser.current :: parser.advance.pending := by
  rw [pending, rest_eq_cons more]
  rfl

/-- A step leaves some of the pending tokens. -/
theorem Step.pending_sublist (step : Step before leaves after) :
    after.pending.Sublist before.pending := by
  rw [pending, pending, step.stop_eq]
  exact (Moves.single step).rest_sublist.append_right _

theorem Moves.pending_sublist (moves : Moves start leaves finish) :
    finish.pending.Sublist start.pending := by
  rw [pending, pending, moves.stop_eq]
  exact moves.rest_sublist.append_right _

/-! ### Leaves in a row -/

variable {holds : Nat → Prop}

theorem InRow.take {parser : Parser} {front : List Token}
    (inRow : InRow holds (front ++ parser.pending)) (more : parser.current.kind ≠ .endOfFile) :
    InRow holds (front ++ [parser.current] ++ parser.advance.pending) := by
  rwa [pending_eq_cons_advance more, ← List.singleton_append, ← List.append_assoc] at inRow

/-- A token that is put in where the next one starts stands in front of what is left of it. -/
theorem InRow.putIn {parser next : Parser} {front : List Token} {added : Token}
    (inRow : InRow holds (front ++ parser.pending))
    (here : added.span = .empty parser.current.position)
    (left : next.pending.Sublist parser.pending) :
    InRow holds (front ++ [added] ++ next.pending) := by
  obtain ⟨others, pending⟩ := parser.exists_pending_eq_cons
  rw [pending] at inRow left
  rw [List.append_assoc, List.singleton_append]
  exact (inRow.insert here).sublist ((left.cons_cons added).append_left front)

/-- **A step keeps the row** of the leaves and the pending tokens. -/
theorem Step.inRow {front : List Token} (step : Step before leaves after)
    (inRow : InRow holds (front ++ before.pending)) :
    InRow holds (front ++ leaves ++ after.pending) := by
  have left := step.pending_sublist
  cases step with
  | take more => exact inRow.take more
  | takeOperator more few => exact inRow.take more
  | drop _ _ _ => exact inRow.putIn rfl left
  | supply _ => exact inRow.putIn rfl left
  | tooDeep _ =>
    -- the number that is put in stands at the end of the line, behind all that is given up
    have ended : InRow holds (front ++ (before.halt .tooDeep).pending) :=
      inRow.sublist (left.append_left front)
    refine ended.putIn ?_ (List.Sublist.refl _)
    rw [position_current_halt]
    rfl
  | tooLong _ =>
    rw [List.append_nil]
    exact inRow.sublist (left.append_left front)

/-- **The leaves of a reading and what it leaves pending stand in one row**, if what was pending
before it did. -/
theorem Moves.inRow (moves : Moves start leaves finish) (inRow : InRow holds start.pending) :
    InRow holds (leaves ++ finish.pending) := by
  induction moves with
  | refl => exact inRow
  | step _ last ih => exact last.inRow ih

/-! ### Places of faults -/

theorem mem_faults_report {parser : Parser} {cause : ParseFault} {span : Span}
    {fault : Located ParseFault} (member : fault ∈ (parser.report cause span).faults.toList) :
    fault ∈ parser.faults.toList ∨ fault.span = span := by
  cases halted : parser.halted with
  | true =>
    rw [report_of_halted halted] at member
    exact .inl member
  | false =>
    rw [faults_report halted, Array.toList_push] at member
    refine (List.mem_append.mp member).imp_right fun added => ?_
    rw [List.mem_singleton.mp added]

theorem Step.span_of_mem_faults (step : Step before leaves after) {fault : Located ParseFault}
    (member : fault ∈ after.faults.toList) :
    fault ∈ before.faults.toList ∨ fault.span = before.current.span := by
  cases step with
  | take _ => exact .inl member
  | takeOperator _ _ => exact .inl member
  | drop _ _ _ => exact mem_faults_report member
  | supply _ => exact mem_faults_report member
  | tooDeep _ => exact mem_faults_report member
  | tooLong _ => exact mem_faults_report member

/-- **Every fault that is recorded has the span of a pending token.** -/
theorem Moves.span_of_mem_faults (moves : Moves start leaves finish) {fault : Located ParseFault}
    (member : fault ∈ finish.faults.toList) :
    fault ∈ start.faults.toList ∨ ∃ token ∈ start.pending, fault.span = token.span := by
  induction moves with
  | refl => exact .inl member
  | @step middle finish leaves added moves last ih =>
    rcases last.span_of_mem_faults member with earlier | here
    · exact ih earlier
    · exact .inr ⟨_, moves.pending_sublist.subset middle.current_mem_pending, here⟩

end Parser

end IntCalc
