/-
**The contract of an expression.**

Wherever the parser of a line stands, and whatever the rank of the operator in front of it, it can
be asked for an expression. It then answers, and the answer keeps the contract (`Cursor.Contract`):
the tokens and the depth are what they were; the index goes on unless the line has ended, and stays
inside the buffer; every operator of the tree is counted once, within the limit; faults are only
added; and a parser that has halted stays halted, at the end of the line (`expression_contract`).

The cursor stands where a sound parser does, and this parser makes progress
(`Buffer.exists_expression`). Mostly it does so by the rules of reading. A rank above that of a sign
is one that no operator has and no rule speaks of: there a sign is dropped like anything else that
opens no operand, and nothing goes on behind an operand.

A line is read from the start of its buffer in this way, and parsed as any line is
(`Buffer.parse?_eq`).
-/
import IntCalc.Proofs.Cursor.Reachable
import IntCalc.Proofs.Parser.Progress

namespace IntCalc

/-- Up to that of a sign, every number is a rank. -/
theorem Precedence.exists_rank_eq {parent : Nat} (binds : parent ≤ sign.rank) :
    ∃ outer : Precedence, outer.rank = parent := by
  match parent, binds with
  | 0, _ => exact ⟨.lowest, rfl⟩
  | 1, _ => exact ⟨.sum, rfl⟩
  | 2, _ => exact ⟨.product, rfl⟩
  | 3, _ => exact ⟨.sign, rfl⟩

/-! ### What a reading keeps and changes -/

namespace Cursor

/-- The token for the end of the line comes next. -/
def atEnd (cursor : Cursor) : Bool := cursor.current?.any fun token => token.kind = .endOfFile

/-- **What the reading of an expression keeps and changes.** -/
structure Contract (before : Cursor) (tree : Expr) (after : Cursor) : Prop where
  tokens : after.tokens = before.tokens
  depth : after.depth = before.depth
  forward : before.position ≤ after.position
  inside : after.position < after.tokens.length
  /-- At least one token is taken, if there is one. -/
  progress : before.atEnd = false → before.position < after.position
  /-- Every operator of the tree is counted once. -/
  operators : after.operators = before.operators + tree.operatorCount
  few : after.operators ≤ maxOperators
  /-- Faults are only added, at the end. -/
  diagnostics : before.diagnostics <+: after.diagnostics
  halted : before.halted = true → after.halted = true
  haltedAtEnd : after.halted = true → after.atEnd = true

end Cursor

namespace Buffer

variable {buffer : Buffer} {depth : Nat} {parser : Parser}

theorem atEnd_cursor (holds : buffer.Holds parser) :
    (buffer.cursor depth parser).atEnd = true ↔ parser.rest = [] := by
  rw [Cursor.atEnd, current?_cursor holds depth, Option.any_some, decide_eq_true_iff,
    holds.kind_eq_endOfFile_iff]

/-- **A parser that makes progress keeps the contract.** -/
theorem contract_of_progress {before after : Parser} {tree : Expr} (sound : buffer.Sound before)
    (progress : before.Progress tree after) :
    Cursor.Contract (buffer.cursor depth before) tree (buffer.cursor depth after) := by
  obtain ⟨leaves, moves⟩ := progress.moves
  have holds := sound.toHolds.moves moves
  have within := sound.behind.length_le
  have fewer := moves.pending_sublist.length_le
  obtain ⟨added, faults⟩ := moves.exists_faults
  have pending (parser : Parser) : parser.pending.length = parser.rest.length + 1 := by
    rw [Parser.pending, List.length_append, List.length_singleton]
  have further := pending before
  have left := pending after
  constructor
  case tokens | depth => rfl
  case forward => exact Nat.sub_le_sub_left fewer _
  case inside =>
    rw [position_cursor, tokens_cursor]
    omega
  case progress =>
    intro goesOn
    have more : before.rest ≠ [] := fun spent => by
      rw [(atEnd_cursor sound.toHolds).mpr spent] at goesOn
      cases goesOn
    have shorter := progress.shorter more
    rw [position_cursor, position_cursor]
    omega
  case operators => exact progress.operators
  case few => exact progress.few
  case diagnostics =>
    simp only [cursor, faults, List.map_append, ← List.append_assoc]
    exact List.prefix_append _ _
  case halted => exact moves.halted
  case haltedAtEnd =>
    exact fun halted => (atEnd_cursor holds).mpr (moves.haltedAtEnd sound.coherent halted)

/-! ### Expressions -/

/-- Where nothing can go on behind an operand, a chain stops at once. -/
theorem chain_cursor_of_lt {parent : Nat} (holds : buffer.Holds parser) (depth : Nat) (left : Expr)
    (tight : Precedence.sign.rank < parent) :
    (buffer.cursor depth parser).chain parent left = some (left, buffer.cursor depth parser) :=
  Cursor.chain_of_stop (current?_cursor holds depth) fun precedence _ =>
    Nat.le_trans precedence.rank_le_sign (Nat.le_of_lt tight)

/-- Where not even a sign binds, an operand is a number or in parentheses, and a sign is dropped. -/
theorem exists_operand_of_lt {parent : Nat} (sound : buffer.Sound parser)
    (running : parser.halted = false) (shallow : depth ≤ maxLevels)
    (tight : Precedence.sign.rank < parent) :
    ∃ tree after,
      (buffer.cursor depth parser).operand parent = some (tree, buffer.cursor depth after) ∧
        parser.Progress tree after := by
  have holds := sound.toHolds
  have next := current?_cursor holds depth
  rw [Cursor.operand_eq_primary next fun sign => Nat.not_le.mpr tight sign.2]
  cases sign : Precedence.isSign parser.current.kind with
  | false =>
    have reads := Parser.reads_run (maxLevels - depth) .operand parser
    have primary := read_cursor reads running holds (Nat.add_sub_cancel' shallow)
    rw [read_operand_eq_primary holds sign] at primary
    exact ⟨_, _, primary, .of_reads sound.few reads running rfl
      (reads.length_rest_lt_of_operand running)⟩
  | true =>
    have other {kind : Token.Kind} (noSign : Precedence.isSign kind = false) :
        parser.current.kind ≠ kind := fun equal => by
      rw [equal, noSign] at sign
      cases sign
    have drops := next?_cursor (holds.report (.expectedExpression parser.current.kind)
      parser.current.span) depth
    rw [← report_cursor] at drops
    exact ⟨_, _, Cursor.primary_of_other next (other rfl) (other rfl) drops,
      .of_drop sound.few running (other rfl) (other rfl)⟩

/-- **An expression is read, whatever it stands at, and makes progress.** -/
theorem exists_expression (sound : buffer.Sound parser) (depth parent : Nat) :
    ∃ tree after,
      (buffer.cursor depth parser).expression parent = some (tree, buffer.cursor depth after) ∧
        parser.Progress tree after := by
  have holds := sound.toHolds
  cases running : parser.halted with
  | true =>
    have refused := enter?_of_halted buffer depth running
    exact ⟨_, _, Cursor.expression_of_refused refused (current?_cursor holds depth),
      .of_halted sound.few (sound.coherent running)⟩
  | false =>
    rcases Nat.lt_or_ge depth maxLevels with deeper | deepest
    · rcases Nat.lt_or_ge Precedence.sign.rank parent with tight | binds
      · obtain ⟨tree, after, leading, progress⟩ := exists_operand_of_lt sound running deeper tight
        obtain ⟨leaves, moves⟩ := progress.moves
        have stops := chain_cursor_of_lt (holds.moves moves) (depth + 1) tree tight
        have entered := enter?_of_lt buffer running deeper
        exact ⟨tree, after, Cursor.expression_of_entered entered leading stops, progress⟩
      · obtain ⟨outer, rfl⟩ := Precedence.exists_rank_eq binds
        have reads := Parser.reads_run (maxLevels - depth) (.expression outer) parser
        exact ⟨_, _, read_cursor reads running holds (Nat.add_sub_cancel' (Nat.le_of_lt deeper)),
          .of_reads sound.few reads running rfl (reads.length_rest_lt_of_expression running)⟩
    · have refused := enter?_of_le holds running deepest
      exact ⟨_, _, Cursor.expression_of_refused refused (current?_cursor (holds.halt _) depth),
        .of_tooDeep sound.few running⟩

/-! ### Whole lines -/

/-- Where tokens are left over, the last of them stands in front of that for the end of the line. -/
theorem exists_final {first : Token} {others : List Token} (holds : buffer.Holds parser)
    (rest : parser.rest = first :: others) :
    ∃ final, buffer.tokens.length.psub 2 = some final ∧
      buffer.tokens[final]? = some (others.getLastD first) := by
  obtain ⟨taken, whole⟩ := holds.behind
  rw [Parser.pending, rest] at whole
  refine ⟨taken.length + others.length, ?_, ?_⟩
  · rw [Nat.psub_eq_some, ← whole]
    simp only [List.length_append, List.length_cons, List.length_nil]
    omega
  · have last : (first :: others).getLast? = some (others.getLastD first) := by
      rw [List.getLast?_cons, List.getLastD_eq_getLast?]
    rw [List.getLast?_eq_getElem?] at last
    rw [← whole, List.getElem?_append_right (Nat.le_add_right _ _), Nat.add_sub_cancel_left,
      List.getElem?_append_left (Nat.lt_succ_self _)]
    exact last

/-- The reading of a line ends where the parser of the line does. -/
theorem expression_ofString (text : String) :
    (Cursor.ofString text).expression Precedence.lowest.rank =
      some ((parse text).root, (ofString text).cursor 0 (lineEnd text)) := by
  rw [← cursor_lineStart]
  exact read_cursor (reads_line text) rfl (sound_lineStart text).toHolds (Nat.zero_add _)

theorem holds_lineEnd (text : String) : (ofString text).Holds (lineEnd text) :=
  (sound_lineStart text).toHolds.moves (moves_line text)

/-- **A cursor and a parser of lists parse a line alike.** -/
theorem parse?_eq (text : String) :
    Cursor.parse? text = some ((parse text).root, (parse text).diagnostics) := by
  have holds := holds_lineEnd text
  rw [Cursor.parse?, expression_ofString, Option.bind_eq_bind, Option.bind_some]
  dsimp only
  rw [current?_cursor holds 0, Option.bind_eq_bind, Option.bind_some, ParsedLine.diagnostics,
    parseFaults_parse, Parser.reportTrailing]
  split
  · rename_i ended
    rw [holds.kind_eq_endOfFile_iff.mp ended]
    rfl
  · rename_i more
    cases rest : (lineEnd text).rest with
    | nil => exact absurd (holds.kind_eq_endOfFile_iff.mpr rest) more
    | cons first others =>
      obtain ⟨final, front, last⟩ := exists_final holds rest
      rw [tokens_cursor, front, Option.bind_eq_bind, Option.bind_some, last, Option.bind_some,
        report_cursor, Parser.current_of_rest rest]
      rfl

end Buffer

namespace Cursor

/-- **The contract of an expression.** The buffer of a line has one token for the end, its last one.
From every cursor that can be reached, and at every rank, an expression is read: the reading ends,
never looks outside the buffer, keeps the contract, and leads to a cursor that can be reached. Tokens
can be left over by a line only if it has one, so there is one in front of the end of the line; and
what is read in this way is the line as it is parsed. -/
theorem expression_contract (text : String) :
    (∃ front, (ofString text).tokens = front ++ [.endOfFile text.utf8ByteSize] ∧
      ∀ token ∈ front, token.kind ≠ .endOfFile) ∧
    (∀ cursor, Reachable text cursor → ∀ parent, ∃ tree after,
      cursor.expression parent = some (tree, after) ∧ Contract cursor tree after ∧
        Reachable text after) ∧
    (∀ root after, (ofString text).expression Precedence.lowest.rank = some (root, after) →
      after.atEnd = false → 2 ≤ after.tokens.length) ∧
    parse? text = some ((parse text).root, (parse text).diagnostics) := by
  refine ⟨⟨_, Buffer.tokens_ofString text, fun _ => Buffer.kind_ne_endOfFile_of_mem_significant⟩,
    fun cursor reachable parent => ?_, fun root after reads goesOn => ?_, Buffer.parse?_eq text⟩
  · obtain ⟨depth, parser, rfl, sound⟩ := Buffer.stands_of_reachable reachable
    obtain ⟨tree, after, reads, progress⟩ := Buffer.exists_expression sound depth parent
    have leads := (leads_reading text).1 _ _ _ reads
    exact ⟨tree, _, reads, Buffer.contract_of_progress sound progress, leads reachable⟩
  · rw [Buffer.expression_ofString] at reads
    obtain ⟨-, rfl⟩ := Prod.mk.inj (Option.some.inj reads)
    have holds := Buffer.holds_lineEnd text
    cases rest : (lineEnd text).rest with
    | nil =>
      rw [(Buffer.atEnd_cursor holds).mpr rest] at goesOn
      cases goesOn
    | cons first others =>
      obtain ⟨final, front, -⟩ := Buffer.exists_final holds rest
      exact Nat.le_of_add_left_le (Nat.le_of_eq (Nat.psub_eq_some.mp front))

/-- Behind a parenthesis that is never closed, a number is taken and the end of the line is not. -/
theorem expression_contract_parenthesis :
    ∃ cursor tree after, Reachable "(7" cursor ∧ cursor.depth = 1 ∧ cursor.position = 1 ∧
      cursor.expression Precedence.lowest.rank = some (tree, after) ∧ after.depth = 1 ∧
      after.position = 2 := by
  let outside : Cursor := { ofString "(7" with depth := 1 }
  let cursor : Cursor := { outside with position := 1 }
  have enters : (ofString "(7").enter? = some (true, outside) := rfl
  have takes : outside.next? = some (⟨.openParen, 0, "(", none⟩, cursor) := by decide +kernel
  have reached : Reachable "(7" cursor := (Reachable.start.enter enters).next takes
  obtain ⟨-, reading, -⟩ := expression_contract "(7"
  obtain ⟨tree, after, reads, contract, -⟩ := reading cursor reached Precedence.lowest.rank
  have length : after.tokens.length = 3 := by
    rw [contract.tokens]
    decide +kernel
  have progress : 1 < after.position := contract.progress (by decide +kernel)
  have inside := contract.inside
  exact ⟨cursor, tree, after, reached, rfl, rfl, reads, contract.depth, by omega⟩

end Cursor

end IntCalc
