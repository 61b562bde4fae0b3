/-
**Reading step by step.**

Seen from its tokens, a reading is a row of single steps (`Reads.moves`): a token is taken and
becomes a leaf of the tree, a token is dropped for a number that is put in, a closing parenthesis is
put in, or a limit ends the reading. Each step leaves some leaves behind and maybe a fault; what
every step keeps, every reading keeps.

* `HaltedAtEnd`: a parser that has halted has no tokens left, so nothing more is read;
* `Moves.exists_faults`: faults are only added, at the end;
* `Moves.rest_eq_of_quiet`: without a new fault the leaves are exactly the tokens that are gone.
-/
import IntCalc.Proofs.Parser.Reads

namespace IntCalc.Parser

/-! ### Steps -/

/-- A parser makes one move and leaves some leaves behind. -/
inductive Step : Parser → List Token → Parser → Prop
  | take {parser : Parser} (more : parser.current.kind ≠ .endOfFile) :
      Step parser [parser.current] parser.advance
  | takeOperator {parser : Parser} (more : parser.current.kind ≠ .endOfFile)
      (few : parser.operators < maxOperators) :
      Step parser [parser.current] parser.advanceOperator
  | drop {parser : Parser} (running : parser.halted = false)
      (notNumber : parser.current.kind ≠ .number) (notOpen : parser.current.kind ≠ .openParen) :
      Step parser [.absentNumber parser.current.position]
        (parser.report (.expectedExpression parser.current.kind) parser.current.span).advance
  | supply {parser : Parser} (lacks : parser.current.kind ≠ .closeParen) :
      Step parser [.missing .closeParen parser.current.position]
        (parser.report (.expectedCloseParen parser.current.kind) parser.current.span)
  | tooDeep {parser : Parser} (running : parser.halted = false) :
      Step parser [.absentNumber parser.stop] (parser.halt .tooDeep)
  | tooLong {parser : Parser} (running : parser.halted = false) :
      Step parser [] (parser.halt .tooLong)

/-- Any number of steps, with all leaves that they leave behind. -/
inductive Moves (start : Parser) : List Token → Parser → Prop
  | refl : Moves start [] start
  | step {middle finish : Parser} {leaves added : List Token} (moves : Moves start leaves middle)
      (last : Step middle added finish) : Moves start (leaves ++ added) finish

namespace Moves

variable {start middle finish : Parser} {leaves added : List Token}

theorem single (step : Step start leaves finish) : Moves start leaves finish :=
  .step .refl step

theorem trans (first : Moves start leaves middle) (second : Moves middle added finish) :
    Moves start (leaves ++ added) finish := by
  induction second with
  | refl => rwa [List.append_nil]
  | step _ last ih =>
    rw [← List.append_assoc]
    exact ih.step last

end Moves

/-! ### Halting -/

/-- A parser that has halted has no tokens left. -/
def HaltedAtEnd (parser : Parser) : Prop := parser.halted = true → parser.rest = []

theorem HaltedAtEnd.running {parser : Parser} (coherent : HaltedAtEnd parser)
    (more : parser.current.kind ≠ .endOfFile) : parser.halted = false := by
  cases halted : parser.halted with
  | false => rfl
  | true =>
    have gone := coherent halted
    rw [rest_eq_cons more] at gone
    exact absurd gone (List.cons_ne_nil _ _)

theorem Step.haltedAtEnd {before after : Parser} {leaves : List Token}
    (step : Step before leaves after) (coherent : HaltedAtEnd before) : HaltedAtEnd after := by
  intro halted
  cases step with
  | take more => exact absurd halted (by simp [coherent.running more])
  | takeOperator more few => exact absurd halted (by simp [coherent.running more])
  | drop running _ _ => exact absurd halted (by simp [running])
  | supply lacks => simpa using coherent (by simpa using halted)
  | tooDeep running => rfl
  | tooLong running => rfl

theorem Moves.haltedAtEnd {start finish : Parser} {leaves : List Token}
    (moves : Moves start leaves finish) (coherent : HaltedAtEnd start) : HaltedAtEnd finish := by
  induction moves with
  | refl => exact coherent
  | step _ last ih => exact last.haltedAtEnd ih

/-! ### The end of the line -/

theorem Step.stop_eq {before after : Parser} {leaves : List Token}
    (step : Step before leaves after) : after.stop = before.stop := by
  cases step with
  | take _ | takeOperator _ _ => rfl
  | drop _ _ _ => exact stop_report ..
  | supply _ => exact stop_report ..
  | tooDeep _ | tooLong _ => exact stop_halt ..

theorem Moves.stop_eq {start finish : Parser} {leaves : List Token}
    (moves : Moves start leaves finish) : finish.stop = start.stop := by
  induction moves with
  | refl => rfl
  | step _ last ih => rw [last.stop_eq, ih]

/-! ### Readings are rows of steps -/

/-- The leaves of what has been read before the goal is set. -/
def Goal.leaves : Goal → List Token
  | chain _ left => left.leaves
  | operand | expression _ => []

/-- When a goal may be set: an operand only while the parser has not halted. -/
def Goal.Ready : Goal → Parser → Prop
  | chain _ _, parser => HaltedAtEnd parser
  | operand, parser | expression _, parser => parser.halted = false

theorem Goal.Ready.haltedAtEnd {goal : Goal} {parser : Parser} (ready : goal.Ready parser) :
    HaltedAtEnd parser := by
  cases goal with
  | chain outer left => exact ready
  | operand | expression outer => exact fun halted => absurd halted (by simp_all [Goal.Ready])

/-- **A reading is a row of steps**, and its leaves are the leaves of the tree. -/
theorem Reads.moves {levels : Nat} {goal : Goal} {before after : Parser} {expr : Expr}
    (reads : Reads levels goal before expr after) (ready : goal.Ready before) :
    ∃ added, expr.leaves = goal.leaves ++ added ∧ Moves before added after := by
  induction reads with
  | number next =>
    exact ⟨_, rfl, .single (.take (by simp [next]))⟩
  | @closed levels parser middle inner next _ closes ih =>
    obtain ⟨added, leaves, moves⟩ := ih ready
    have more : parser.current.kind ≠ .endOfFile := by simp [next]
    have opening := Moves.single (.take more)
    refine ⟨_, ?_, (opening.trans moves).step (.take (by simp [closes]))⟩
    simp_all [Expr.leaves, Goal.leaves]
  | @unclosed levels parser middle inner next _ lacks ih =>
    obtain ⟨added, leaves, moves⟩ := ih ready
    have more : parser.current.kind ≠ .endOfFile := by simp [next]
    have opening := Moves.single (.take more)
    refine ⟨_, ?_, (opening.trans moves).step (.supply lacks)⟩
    simp_all [Expr.leaves, Goal.leaves]
  | absent notNumber notOpen _ =>
    exact ⟨_, rfl, .single (.drop ready notNumber notOpen)⟩
  | @signed levels parser after operand next _ ih =>
    obtain ⟨added, leaves, moves⟩ := ih ready
    have more : parser.current.kind ≠ .endOfFile := by
      intro ended
      simp [ended, Precedence.isSign] at next
    have sign := Moves.single (.take more)
    exact ⟨_, by simp_all [Expr.leaves, Goal.leaves], sign.trans moves⟩
  | stop ends => exact ⟨[], (List.append_nil _).symm, .refl⟩
  | @link levels parser middle after outer precedence left right whole binds few _ _ ihRight
      ihRest =>
    have more := current_kind_ne_of_above? binds
    have running : parser.halted = false := HaltedAtEnd.running ready more
    obtain ⟨taken, rightLeaves, moves⟩ := ihRight running
    have operator := Moves.single (.takeOperator more few)
    have coherent := (operator.trans moves).haltedAtEnd ready
    obtain ⟨added, leaves, others⟩ := ihRest coherent
    exact ⟨_, by simp_all [Expr.leaves, Goal.leaves], (operator.trans moves).trans others⟩
  | tooLong binds many =>
    have running := HaltedAtEnd.running ready (current_kind_ne_of_above? binds)
    exact ⟨[], (List.append_nil _).symm, .single (.tooLong running)⟩
  | expression _ _ ihLeft ihRest =>
    obtain ⟨taken, leftLeaves, moves⟩ := ihLeft ready
    have operandReady : Goal.operand.Ready _ := ready
    have coherent := moves.haltedAtEnd operandReady.haltedAtEnd
    obtain ⟨added, leaves, others⟩ := ihRest coherent
    exact ⟨_, by simp_all [Goal.leaves], moves.trans others⟩
  | tooDeep => exact ⟨_, rfl, .single (.tooDeep ready)⟩

theorem Reads.haltedAtEnd {levels : Nat} {goal : Goal} {before after : Parser} {expr : Expr}
    (reads : Reads levels goal before expr after) (ready : goal.Ready before) :
    HaltedAtEnd after := by
  obtain ⟨added, -, moves⟩ := reads.moves ready
  exact moves.haltedAtEnd ready.haltedAtEnd

/-! ### Faults -/

theorem Step.exists_faults {before after : Parser} {leaves : List Token}
    (step : Step before leaves after) :
    ∃ added, after.faults.toList = before.faults.toList ++ added := by
  cases step with
  | take more | takeOperator more few => exact ⟨[], (List.append_nil _).symm⟩
  | drop running _ _ => exact ⟨[_], by rw [faults_advance, faults_report running]; simp; rfl⟩
  | supply lacks =>
    cases running : before.halted with
    | false => exact ⟨[_], by rw [faults_report running]; simp; rfl⟩
    | true => exact ⟨[], by rw [report_of_halted running, List.append_nil]⟩
  | tooDeep running | tooLong running =>
    exact ⟨[_], by rw [faults_halt running]; simp; rfl⟩

theorem Moves.exists_faults {start finish : Parser} {leaves : List Token}
    (moves : Moves start leaves finish) :
    ∃ added, finish.faults.toList = start.faults.toList ++ added := by
  induction moves with
  | refl => exact ⟨[], (List.append_nil _).symm⟩
  | step _ last ih =>
    obtain ⟨earlier, faults⟩ := ih
    obtain ⟨later, faults'⟩ := last.exists_faults
    exact ⟨earlier ++ later, by rw [faults', faults, List.append_assoc]⟩

/-- A step without a fault takes its leaves from the tokens. -/
theorem Step.rest_eq_of_quiet {before after : Parser} {leaves : List Token}
    (step : Step before leaves after) (running : before.halted = false)
    (quiet : after.faults.toList = before.faults.toList) :
    after.halted = false ∧ before.rest = leaves ++ after.rest := by
  cases step with
  | take more | takeOperator more few => exact ⟨running, rest_eq_cons more⟩
  | drop _ _ _ => simp [faults_report running] at quiet
  | supply lacks => simp [faults_report running] at quiet
  | tooDeep _ | tooLong _ => simp [faults_halt running] at quiet

/-- **Without a new fault the leaves are exactly the tokens that are gone.** -/
theorem Moves.rest_eq_of_quiet {start finish : Parser} {leaves : List Token}
    (moves : Moves start leaves finish) (running : start.halted = false)
    (quiet : finish.faults.toList = start.faults.toList) :
    finish.halted = false ∧ start.rest = leaves ++ finish.rest := by
  induction moves with
  | refl => exact ⟨running, rfl⟩
  | @step middle finish leaves added moves last ih =>
    obtain ⟨earlier, faults⟩ := moves.exists_faults
    obtain ⟨later, faults'⟩ := last.exists_faults
    -- the faults at the end are those at the start, so neither part adds any
    have none : earlier = [] ∧ later = [] := by
      rw [faults', faults, List.append_assoc, List.append_right_eq_self] at quiet
      exact List.append_eq_nil_iff.mp quiet
    obtain ⟨rfl, rfl⟩ := none
    rw [List.append_nil] at faults faults'
    obtain ⟨stillRunning, front⟩ := ih faults
    obtain ⟨ends, back⟩ := last.rest_eq_of_quiet stillRunning faults'
    exact ⟨ends, by rw [front, back, List.append_assoc]⟩

end IntCalc.Parser
