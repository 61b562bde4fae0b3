/-
**An index stands where a parser does.**

The tokens that a parser has not yet taken are the last ones of the buffer (`Buffer.Holds`), so a
parser fixes an index (`Buffer.cursor`). This index is inside the buffer, since the token for the
end of the line is never taken. Every move of such a cursor is answered, and it is the move of the
parser: a token is taken, a fault is recorded, a limit halts the one as the other.

By induction on the rules of reading, the cursor then reads what the parser reads, and ends where
the parser does (`read_cursor`). The depth of the cursor and the levels that the parser has left add
up to the limit; a cursor that goes deeper has one level less to give.
-/
import IntCalc.Proofs.Cursor.Reading
import IntCalc.Proofs.Parser.Placement
import IntCalc.Proofs.Line
import IntCalc.Proofs.Parser.Trees

namespace IntCalc

/-- No operator binds more tightly than a sign. -/
theorem Precedence.rank_le_sign (outer : Precedence) : outer.rank ≤ sign.rank := by
  cases outer <;> decide

namespace Cursor

/-- The index of the last token. -/
theorem psub_length_eq {tokens taken others : List Token} {token : Token}
    (whole : tokens = taken ++ token :: others) :
    tokens.length.psub 1 = some (taken.length + others.length) := by
  rw [Nat.psub_eq_some, whole, List.length_append, List.length_cons, Nat.add_assoc]

/-- A token of the buffer is found at its index. -/
theorem current?_eq_some {cursor : Cursor} {taken others : List Token} {token : Token}
    (whole : cursor.tokens = taken ++ token :: others) (here : cursor.position = taken.length) :
    cursor.current? = some token := by
  have within : min (cursor.position + 0) (taken.length + others.length) = taken.length := by
    rw [Nat.add_zero, here, Nat.min_eq_left (Nat.le_add_right ..)]
  rw [current?, peek?, psub_length_eq whole, Option.bind_eq_bind, Option.bind_some, within, whole,
    List.getElem?_append_right (Nat.le_refl _), Nat.sub_self, List.getElem?_cons_zero]

end Cursor

/-- What does not change while a line is read: the tokens, and what was reported before. -/
structure Buffer where
  tokens : List Token
  reported : List Diagnostic

namespace Buffer

/-- The cursor that stands where a parser does. -/
def cursor (buffer : Buffer) (depth : Nat) (parser : Parser) : Cursor where
  tokens := buffer.tokens
  position := buffer.tokens.length - parser.pending.length
  depth := depth
  operators := parser.operators
  diagnostics := buffer.reported ++ parser.faults.toList.map (·.diagnostic ParseFault.message)
  halted := parser.halted

@[simp]
theorem tokens_cursor (buffer : Buffer) (depth : Nat) (parser : Parser) :
    (buffer.cursor depth parser).tokens = buffer.tokens := rfl

@[simp]
theorem position_cursor (buffer : Buffer) (depth : Nat) (parser : Parser) :
    (buffer.cursor depth parser).position = buffer.tokens.length - parser.pending.length := rfl

@[simp]
theorem depth_cursor (buffer : Buffer) (depth : Nat) (parser : Parser) :
    (buffer.cursor depth parser).depth = depth := rfl

@[simp]
theorem operators_cursor (buffer : Buffer) (depth : Nat) (parser : Parser) :
    (buffer.cursor depth parser).operators = parser.operators := rfl

@[simp]
theorem halted_cursor (buffer : Buffer) (depth : Nat) (parser : Parser) :
    (buffer.cursor depth parser).halted = parser.halted := rfl

/-- The pending tokens of a parser are the last ones of a buffer, and only the very last one is for
the end of the line. -/
structure Holds (buffer : Buffer) (parser : Parser) : Prop where
  behind : parser.pending <:+ buffer.tokens
  proper : ∀ token ∈ parser.rest, token.kind ≠ .endOfFile

variable {buffer : Buffer} {depth : Nat} {parser : Parser}

/-! ### Moves keep the buffer -/

namespace Holds

variable (holds : buffer.Holds parser)

include holds

theorem kind_eq_endOfFile_iff : parser.current.kind = .endOfFile ↔ parser.rest = [] := by
  constructor
  · intro ended
    by_contra more
    exact holds.proper _ (Parser.current_mem more) ended
  · intro spent
    rw [Parser.current_of_rest_nil spent]
    rfl

theorem advance : buffer.Holds parser.advance := by
  obtain ⟨taken, rest⟩ := parser.rest.tail_suffix
  have fewer : parser.advance.pending <:+ parser.pending := by
    refine ⟨taken, ?_⟩
    rw [Parser.pending, Parser.pending, Parser.rest_advance, ← List.append_assoc, rest]
    rfl
  exact ⟨fewer.trans holds.behind,
    fun token member => holds.proper token (List.mem_of_mem_tail member)⟩

theorem report (fault : ParseFault) (span : Span) : buffer.Holds (parser.report fault span) := by
  have same : (parser.report fault span).pending = parser.pending := by
    rw [Parser.pending, Parser.rest_report, Parser.stop_report, Parser.pending]
  refine ⟨same ▸ holds.behind, ?_⟩
  rw [Parser.rest_report]
  exact holds.proper

theorem halt (limit : ParseFault) : buffer.Holds (parser.halt limit) := by
  have last : (parser.halt limit).pending = [.endOfFile parser.stop] := by
    rw [Parser.pending, Parser.rest_halt, Parser.stop_halt, List.nil_append]
  refine ⟨?_, fun token member => ?_⟩
  · rw [last]
    exact (List.suffix_append _ _).trans holds.behind
  · rw [Parser.rest_halt] at member
    cases member

end Holds

/-- A step keeps the buffer. -/
theorem Holds.step {before after : Parser} {leaves : List Token} (holds : buffer.Holds before)
    (step : Parser.Step before leaves after) : buffer.Holds after := by
  cases step with
  | take _ => exact holds.advance
  | takeOperator _ _ => exact ⟨holds.advance.behind, holds.advance.proper⟩
  | drop _ _ _ => exact (holds.report _ _).advance
  | supply _ => exact holds.report _ _
  | tooDeep _ | tooLong _ => exact holds.halt _

/-- **A reading keeps the buffer.** -/
theorem Holds.moves {before after : Parser} {leaves : List Token} (holds : buffer.Holds before)
    (moves : Parser.Moves before leaves after) : buffer.Holds after := by
  induction moves with
  | refl => exact holds
  | step _ last ih => exact ih.step last

theorem Holds.reads {levels : Nat} {goal : Parser.Goal} {before after : Parser} {expr : Expr}
    (holds : buffer.Holds before) (reads : Parser.Reads levels goal before expr after)
    (ready : goal.Ready before) : buffer.Holds after := by
  obtain ⟨_, _, moves⟩ := reads.moves ready
  exact holds.moves moves

/-! ### Moves agree -/

/-- A cursor stands at the token that comes next. -/
theorem exists_tokens (holds : buffer.Holds parser) (depth : Nat) :
    ∃ taken others, buffer.tokens = taken ++ parser.current :: others ∧
      (buffer.cursor depth parser).position = taken.length := by
  obtain ⟨taken, whole⟩ := holds.behind
  obtain ⟨others, pending⟩ := parser.exists_pending_eq_cons
  refine ⟨taken, others, by rw [← pending, whole], ?_⟩
  rw [position_cursor, ← whole, List.length_append, Nat.add_sub_cancel]

theorem current?_cursor (holds : buffer.Holds parser) (depth : Nat) :
    (buffer.cursor depth parser).current? = some parser.current := by
  obtain ⟨taken, others, whole, here⟩ := exists_tokens holds depth
  exact Cursor.current?_eq_some whole here

theorem next?_cursor (holds : buffer.Holds parser) (depth : Nat) :
    (buffer.cursor depth parser).next? =
      some (parser.current, buffer.cursor depth parser.advance) := by
  rw [Cursor.next?, current?_cursor holds depth, Option.bind_eq_bind, Option.bind_some]
  split
  · rename_i ended
    have spent := holds.kind_eq_endOfFile_iff.mp ended
    have still : parser.advance = parser := by
      rw [Parser.advance, spent, List.tail_nil, ← spent]
    rw [still]
    rfl
  · rename_i more
    have taken : parser.pending.length = parser.advance.pending.length + 1 := by
      rw [Parser.pending_eq_cons_advance more, List.length_cons]
    have bound := holds.behind.length_le
    have further : (buffer.cursor depth parser).position + 1 =
        (buffer.cursor depth parser.advance).position := by
      rw [position_cursor, position_cursor]
      omega
    rw [further]
    rfl

theorem report_cursor (fault : ParseFault) (span : Span) :
    (buffer.cursor depth parser).report fault span =
      buffer.cursor depth (parser.report fault span) := by
  cases halted : parser.halted with
  | true =>
    rw [Parser.report_of_halted halted]
    exact if_pos halted
  | false =>
    simp [Cursor.report, Parser.report, cursor, halted, Parser.pending, Located.diagnostic]

theorem halt?_cursor (holds : buffer.Holds parser) (depth : Nat) (limit : ParseFault) :
    (buffer.cursor depth parser).halt? limit = some (buffer.cursor depth (parser.halt limit)) := by
  obtain ⟨taken, others, whole, -⟩ := exists_tokens holds depth
  have last : taken.length + others.length =
      (buffer.cursor depth (parser.halt limit)).position := by
    simp [whole, Parser.pending]
  rw [Cursor.halt?, current?_cursor holds depth, Option.bind_eq_bind, Option.bind_some,
    tokens_cursor, Cursor.psub_length_eq whole, Option.bind_eq_bind, Option.bind_some,
    report_cursor, last]
  rfl

theorem not_halted_cursor (running : parser.halted = false) :
    ¬ (buffer.cursor depth parser).halted = true := by
  simp [running]

theorem enter?_of_halted (buffer : Buffer) (depth : Nat) (halted : parser.halted = true) :
    (buffer.cursor depth parser).enter? = some (false, buffer.cursor depth parser) :=
  if_pos halted

theorem enter?_of_lt (buffer : Buffer) (running : parser.halted = false)
    (deeper : depth < maxLevels) :
    (buffer.cursor depth parser).enter? = some (true, buffer.cursor (depth + 1) parser) := by
  rw [Cursor.enter?, if_neg (not_halted_cursor running), depth_cursor,
    if_neg (Nat.not_le.mpr deeper)]
  rfl

theorem enter?_of_le (holds : buffer.Holds parser) (running : parser.halted = false)
    (deepest : maxLevels ≤ depth) :
    (buffer.cursor depth parser).enter? =
      some (false, buffer.cursor depth (parser.halt .tooDeep)) := by
  rw [Cursor.enter?, if_neg (not_halted_cursor running), depth_cursor, if_pos deepest,
    halt?_cursor holds depth]
  rfl

theorem link?_of_halted (buffer : Buffer) (depth : Nat) (halted : parser.halted = true) :
    (buffer.cursor depth parser).link? = some (false, buffer.cursor depth parser) :=
  if_pos halted

theorem link?_of_lt (buffer : Buffer) (depth : Nat) (running : parser.halted = false)
    (few : parser.operators < maxOperators) :
    (buffer.cursor depth parser).link? =
      some (true, buffer.cursor depth { parser with operators := parser.operators + 1 }) := by
  rw [Cursor.link?, if_neg (not_halted_cursor running), operators_cursor,
    if_neg (Nat.not_le.mpr few)]
  rfl

theorem link?_of_le (holds : buffer.Holds parser) (depth : Nat) (running : parser.halted = false)
    (many : maxOperators ≤ parser.operators) :
    (buffer.cursor depth parser).link? =
      some (false, buffer.cursor depth (parser.halt .tooLong)) := by
  rw [Cursor.link?, if_neg (not_halted_cursor running), operators_cursor, if_pos many,
    halt?_cursor holds depth]
  rfl

theorem closeParen?_of_eq (holds : buffer.Holds parser) (depth : Nat)
    (closes : parser.current.kind = .closeParen) :
    (buffer.cursor depth parser).closeParen? =
      some (parser.current, buffer.cursor depth parser.advance) := by
  rw [Cursor.closeParen?, current?_cursor holds depth, Option.bind_eq_bind, Option.bind_some,
    if_pos closes, next?_cursor holds depth]

theorem closeParen?_of_ne (holds : buffer.Holds parser) (depth : Nat)
    (lacks : parser.current.kind ≠ .closeParen) :
    (buffer.cursor depth parser).closeParen? =
      some (.missing .closeParen parser.current.position, buffer.cursor depth
        (parser.report (.expectedCloseParen parser.current.kind) parser.current.span)) := by
  rw [Cursor.closeParen?, current?_cursor holds depth, Option.bind_eq_bind, Option.bind_some,
    if_neg lacks, report_cursor]
  rfl

/-! ### Readings agree -/

/-- What a cursor does about a goal. An operand is read in the same way at all operators. -/
def read : Parser.Goal → Cursor → Option (Expr × Cursor)
  | .operand => Cursor.operand Precedence.lowest.rank
  | .chain outer left => Cursor.chain outer.rank left
  | .expression outer => Cursor.expression outer.rank

theorem operand_eq {parent : Nat} (le : parent ≤ Precedence.sign.rank) (cursor : Cursor) :
    cursor.operand parent = read .operand cursor := by
  have least : Precedence.lowest.rank ≤ Precedence.sign.rank := by decide
  rw [read, Cursor.operand, Cursor.operand]
  simp only [le, least]

theorem read_operand_eq_primary (holds : buffer.Holds parser)
    (notSign : Precedence.isSign parser.current.kind = false) :
    read .operand (buffer.cursor depth parser) = (buffer.cursor depth parser).primary :=
  Cursor.operand_eq_primary (current?_cursor holds depth) (by simp [notSign])

/-- **A cursor reads what the parser reads** that it stands for, and ends where that parser does. -/
theorem read_cursor {levels : Nat} {goal : Parser.Goal} {before after : Parser} {expr : Expr}
    (reads : Parser.Reads levels goal before expr after) (ready : goal.Ready before)
    (holds : buffer.Holds before) (counted : depth + levels = maxLevels) :
    read goal (buffer.cursor depth before) = some (expr, buffer.cursor depth after) := by
  induction reads generalizing depth with
  | number next =>
    rw [read_operand_eq_primary holds (by rw [next]; rfl)]
    exact Cursor.primary_of_number (current?_cursor holds depth) next (next?_cursor holds depth)
  | closed next reads closes ih =>
    have closing := closeParen?_of_eq (holds.advance.reads reads ready) depth closes
    rw [read_operand_eq_primary holds (by rw [next]; rfl)]
    exact Cursor.primary_of_openParen (current?_cursor holds depth) next (next?_cursor holds depth)
      (ih ready holds.advance counted) closing
  | unclosed next reads lacks ih =>
    have closing := closeParen?_of_ne (holds.advance.reads reads ready) depth lacks
    rw [read_operand_eq_primary holds (by rw [next]; rfl)]
    exact Cursor.primary_of_openParen (current?_cursor holds depth) next (next?_cursor holds depth)
      (ih ready holds.advance counted) closing
  | @absent levels parser notNumber notOpen notSign =>
    rw [read_operand_eq_primary holds notSign]
    have drops := next?_cursor (holds.report (.expectedExpression parser.current.kind)
      parser.current.span) depth
    rw [← report_cursor] at drops
    exact Cursor.primary_of_other (current?_cursor holds depth) notNumber notOpen drops
  | signed next reads ih =>
    exact Cursor.operand_of_sign (current?_cursor holds depth) next (by decide)
      (next?_cursor holds depth) (ih ready holds.advance counted)
  | stop ends =>
    exact Cursor.chain_of_stop (current?_cursor holds depth) fun _ joins =>
      Precedence.rank_le_of_above? joins ends
  | @link levels parser middle after outer precedence left right whole binds few reads _ ihRight
      ihRest =>
    obtain ⟨joins, tighter⟩ := Precedence.above?_eq_some_iff.mp binds
    have running := Parser.HaltedAtEnd.running ready (Parser.current_kind_ne_of_above? binds)
    have counts := link?_of_lt buffer depth running few
    have linked : buffer.Holds { parser with operators := parser.operators + 1 } :=
      ⟨holds.behind, holds.proper⟩
    exact Cursor.chain_of_linked joins tighter (current?_cursor holds depth) counts
      (next?_cursor linked depth) (ihRight running linked.advance counted)
      (ihRest (reads.haltedAtEnd running) (linked.advance.reads reads running) counted)
  | tooLong binds many =>
    obtain ⟨joins, tighter⟩ := Precedence.above?_eq_some_iff.mp binds
    have running := Parser.HaltedAtEnd.running ready (Parser.current_kind_ne_of_above? binds)
    exact Cursor.chain_of_refused joins tighter (current?_cursor holds depth)
      (link?_of_le holds depth running many)
  | @expression levels parser middle after outer left whole reads _ ihLeft ihRest =>
    have deeper : depth + 1 + levels = maxLevels := by omega
    have operand := ihLeft ready holds deeper
    rw [← operand_eq outer.rank_le_sign] at operand
    have operandReady : Parser.Goal.operand.Ready parser := ready
    exact Cursor.expression_of_entered (enter?_of_lt buffer ready (by omega)) operand
      (ihRest (reads.haltedAtEnd ready) (holds.reads reads operandReady) deeper)
  | @tooDeep parser outer =>
    have entering := enter?_of_le holds ready (Nat.le_of_eq counted.symm)
    have next := current?_cursor (holds.halt .tooDeep) depth
    rw [← Parser.position_current_halt parser .tooDeep]
    exact Cursor.expression_of_refused entering next

end Buffer

end IntCalc
