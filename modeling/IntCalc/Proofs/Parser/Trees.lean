/-
**The trees that are read.**

Whatever the tokens are, the tree of a reading is one of the grammar, with leaves put in where the
line lacks them (`Reads.derives`). The count of operators grows by the operators of the tree
(`Reads.operators_eq`) and stays within its limit (`Reads.operators_le`). A tree never nests deeper
than there are levels (`Reads.nesting_le`), and less deep unless the reading ran out of them
(`Reads.nesting_lt`).
-/
import IntCalc.Proofs.Grammar
import IntCalc.Proofs.Parser.Steps

namespace IntCalc.Parser

/-! ### Shape -/

/-- What a goal needs of the first part of a chain, before the given kind of token: it is an operand
of the chain so far, and a left operand of the next operator if that goes on with the chain. -/
def Goal.Founded : Goal → Token.Kind → Prop
  | chain outer left, next =>
    left.Derives outer.category ∧
      ∀ precedence, outer.above? next = some precedence → left.Derives precedence.chained
  | operand, _ | expression _, _ => True

/-- What a goal makes sure of, before the given kind of token: the tree is of the category that is
looked for, and the token does not go on with it. -/
def Goal.Reached : Goal → Expr → Token.Kind → Prop
  | operand, expr, _ => expr.Derives .unary
  | chain outer _, expr, next | expression outer, expr, next =>
    expr.Derives outer.category ∧ outer.above? next = none

/-- A unary can be read at every precedence. -/
theorem rank_unary_le_category (outer : Precedence) :
    Category.unary.rank ≤ outer.category.rank := by
  cases outer <;> decide

theorem rank_unary_le_chained (precedence : Precedence) :
    Category.unary.rank ≤ precedence.chained.rank := by
  cases precedence <;> decide

/-- **Every tree that is read is one of the grammar.** -/
theorem Reads.derives {levels : Nat} {goal : Goal} {before after : Parser} {expr : Expr}
    (reads : Reads levels goal before expr after) (founded : goal.Founded before.current.kind) :
    goal.Reached expr after.current.kind := by
  induction reads with
  | number next => exact .unaryOfPrimary (.number next)
  | closed next _ closes ih => exact .unaryOfPrimary (.paren next (ih trivial).1 closes)
  | unclosed next _ _ ih => exact .unaryOfPrimary (.paren next (ih trivial).1 rfl)
  | absent _ _ _ => exact .unaryOfPrimary (.number rfl)
  | signed next _ ih => exact .signed (Precedence.isSign_iff.mp next) (ih trivial).1
  | stop ends => exact ⟨founded.1, ends⟩
  | link binds _ _ _ ihRight ihRest =>
    obtain ⟨joins, tighter⟩ := Precedence.above?_eq_some_iff.mp binds
    obtain ⟨right, ends⟩ := ihRight trivial
    have whole := Expr.Derives.binary joins (founded.2 _ binds) right
    refine ihRest ⟨whole.mono (Precedence.rank_chained_le_category tighter), ?_⟩
    intro precedence following
    obtain ⟨joins', -⟩ := Precedence.above?_eq_some_iff.mp following
    exact whole.mono (Precedence.rank_chained_le_chained (Precedence.rank_le_of_above? joins' ends))
  | tooLong _ _ => exact ⟨founded.1, rfl⟩
  | expression _ _ ihLeft ihRest =>
    have left : Expr.Derives .unary _ := ihLeft trivial
    exact ihRest ⟨left.mono (rank_unary_le_category _),
      fun precedence _ => left.mono (rank_unary_le_chained precedence)⟩
  | tooDeep => exact ⟨(Expr.Derives.number rfl).mono (Nat.zero_le _), rfl⟩

/-! ### Operators -/

/-- The number of operators in what has been read before the goal is set. -/
def Goal.operatorCount : Goal → Nat
  | chain _ left => left.operatorCount
  | operand | expression _ => 0

/-- **Every operator of the tree is counted once.** -/
theorem Reads.operators_eq {levels : Nat} {goal : Goal} {before after : Parser} {expr : Expr}
    (reads : Reads levels goal before expr after) :
    after.operators + goal.operatorCount = before.operators + expr.operatorCount := by
  induction reads with
  | number _ | absent _ _ _ => simp [Goal.operatorCount, Expr.operatorCount]
  | closed _ _ _ ih | unclosed _ _ _ ih | signed _ _ ih =>
    simpa [Goal.operatorCount, Expr.operatorCount] using ih
  | stop _ | tooLong _ _ => simp [Goal.operatorCount]
  | link _ _ _ _ ihRight ihRest =>
    simp only [Goal.operatorCount, Expr.operatorCount, operators_advanceOperator] at *
    omega
  | expression _ _ ihLeft ihRest =>
    simp only [Goal.operatorCount] at *
    omega
  | tooDeep => simp [Goal.operatorCount, Expr.operatorCount]

/-- **The count of operators stays within its limit.** -/
theorem Reads.operators_le {levels : Nat} {goal : Goal} {before after : Parser} {expr : Expr}
    (reads : Reads levels goal before expr after) (within : before.operators ≤ maxOperators) :
    after.operators ≤ maxOperators := by
  induction reads with
  | number _ => exact within
  | closed _ _ _ ih | signed _ _ ih => exact ih within
  | unclosed _ _ _ ih => simpa using ih within
  | absent _ _ _ | tooLong _ _ | tooDeep => simpa using within
  | stop _ => exact within
  | link _ few _ _ ihRight ihRest => exact ihRest (ihRight few)
  | expression _ _ ihLeft ihRest => exact ihRest (ihLeft within)

/-! ### Nesting -/

/-- A fault of the given cause has been recorded. -/
def Recorded (parser : Parser) (cause : ParseFault) : Prop :=
  ∃ fault ∈ parser.faults.toList, fault.value = cause

theorem recorded_halt {parser : Parser} (running : parser.halted = false) (limit : ParseFault) :
    Recorded (parser.halt limit) limit := by
  refine ⟨⟨limit, parser.current.span⟩, ?_, rfl⟩
  rw [faults_halt running, Array.toList_push]
  exact List.mem_append_right _ (List.mem_singleton_self _)

theorem Recorded.of_step {before after : Parser} {leaves : List Token} {cause : ParseFault}
    (recorded : Recorded before cause) (step : Step before leaves after) :
    Recorded after cause := by
  obtain ⟨added, faults⟩ := step.exists_faults
  obtain ⟨fault, member, value⟩ := recorded
  exact ⟨fault, by rw [faults]; exact List.mem_append_left _ member, value⟩

theorem Recorded.of_moves {start finish : Parser} {leaves : List Token} {cause : ParseFault}
    (recorded : Recorded start cause) (moves : Moves start leaves finish) :
    Recorded finish cause := by
  induction moves with
  | refl => exact recorded
  | step _ last ih => exact ih.of_step last

theorem Recorded.of_reads {levels : Nat} {goal : Goal} {before after : Parser} {expr : Expr}
    {cause : ParseFault} (recorded : Recorded before cause)
    (reads : Reads levels goal before expr after) (ready : goal.Ready before) :
    Recorded after cause := by
  obtain ⟨_, _, moves⟩ := reads.moves ready
  exact recorded.of_moves moves

/-- The number of levels that a goal may take up. -/
def Goal.levels (levels : Nat) : Goal → Nat
  | operand | chain _ _ => levels + 1
  | expression _ => levels

/-- How far what has been read before the goal is set nests. -/
def Goal.nesting : Goal → Nat
  | chain _ left => left.nesting
  | operand | expression _ => 0

/-- **A tree never nests deeper than there are levels**, also where the reading runs out of them. -/
theorem Reads.nesting_le {levels : Nat} {goal : Goal} {before after : Parser} {expr : Expr}
    (reads : Reads levels goal before expr after) (shallow : goal.nesting ≤ goal.levels levels) :
    expr.nesting ≤ goal.levels levels := by
  induction reads with
  | number _ | absent _ _ _ | tooDeep => exact Nat.zero_le _
  | closed _ _ _ ih | unclosed _ _ _ ih | signed _ _ ih =>
    have inner := ih (Nat.zero_le _)
    simp only [Goal.levels, Expr.nesting] at inner ⊢
    omega
  | stop _ | tooLong _ _ => exact shallow
  | link _ _ _ _ ihRight ihRest =>
    have right := ihRight (Nat.zero_le _)
    refine ihRest ?_
    simp only [Goal.nesting, Goal.levels, Expr.nesting] at shallow right ⊢
    omega
  | expression _ _ ihLeft ihRest => exact ihRest (ihLeft (Nat.zero_le _))

/-- What a goal needs of the first part of a chain: it takes up no more levels than there are, or
the reading has run out of them already. -/
def Goal.Shallow (levels : Nat) : Goal → Parser → Prop
  | chain _ left, parser => left.nesting < levels + 1 ∨ Recorded parser .tooDeep
  | operand, _ | expression _, _ => True

/-- **A tree nests less deep than there are levels**, unless the reading ran out of levels. -/
theorem Reads.nesting_lt {levels : Nat} {goal : Goal} {before after : Parser} {expr : Expr}
    (reads : Reads levels goal before expr after) (ready : goal.Ready before)
    (shallow : goal.Shallow levels before) :
    expr.nesting < goal.levels levels ∨ Recorded after .tooDeep := by
  induction reads with
  | number _ | absent _ _ _ => exact .inl (Nat.succ_pos _)
  | closed _ _ _ ih =>
    refine (ih ready trivial).imp_left fun inner => ?_
    simp only [Goal.levels, Expr.nesting] at inner ⊢
    omega
  | unclosed _ _ lacks ih =>
    refine (ih ready trivial).imp (fun inner => ?_) fun deep => deep.of_step (.supply lacks)
    simp only [Goal.levels, Expr.nesting] at inner ⊢
    omega
  | signed _ _ ih =>
    refine (ih ready trivial).imp_left fun operand => ?_
    simp only [Goal.levels, Expr.nesting] at operand ⊢
    omega
  | stop _ => exact shallow
  | tooLong binds _ =>
    have running := HaltedAtEnd.running ready (current_kind_ne_of_above? binds)
    exact shallow.imp_right fun deep => deep.of_step (.tooLong running)
  | @link levels parser middle after outer precedence left right whole binds _ reads _ ihRight
      ihRest =>
    have running : parser.halted = false :=
      HaltedAtEnd.running ready (current_kind_ne_of_above? binds)
    have coherent := reads.haltedAtEnd running
    refine ihRest coherent ?_
    rcases shallow with leftFits | deep
    · refine (ihRight running trivial).imp_left fun rightFits => ?_
      simp only [Goal.levels, Expr.nesting] at rightFits ⊢
      omega
    · have deeper : Recorded parser.advanceOperator .tooDeep := deep
      exact .inr (deeper.of_reads reads running)
  | expression reads _ ihLeft ihRest => exact ihRest (reads.haltedAtEnd ready) (ihLeft ready trivial)
  | tooDeep => exact .inr (recorded_halt ready .tooDeep)

end IntCalc.Parser
