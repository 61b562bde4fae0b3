/-
**How a reading goes on after a fault.**

A token that cannot open an operand is dropped and the reading goes on behind it. Every other fault
is the beginning of the end: where the line ends too early, where a closing parenthesis is missing
and where a limit is exceeded, no token is taken any more. A missing parenthesis shows at a token that
is neither an operator nor a parenthesis that closes (`Stuck`). What is read around the parenthesis
does not take such a token either, so all parentheses that are still open are found missing at it.

* `Clear`: only tokens that were dropped have been reported;
* `Settled`: behind them the parser has reported at most one missing operand and any number of missing
  parentheses, all at the token that comes next, or else one limit;
* `Settled.clear`: a parser that is not stuck is clear, so nothing is taken in any other state;
* `Reads.settled`: a reading from a clear state always leads to a settled one.
-/
import IntCalc.Proofs.Parser.Accounts
import IntCalc.Proofs.Parser.Trees

namespace IntCalc

namespace Token

/-- The fault of a token that comes where an operand should. -/
def noOperand (token : Token) : Located ParseFault := ⟨.expectedExpression token.kind, token.span⟩

/-- The fault of a token that comes where a closing parenthesis should. -/
def noClosing (token : Token) : Located ParseFault := ⟨.expectedCloseParen token.kind, token.span⟩

/-- The token is one that is dropped where an operand should come. -/
def Misplaced (token : Token) : Prop :=
  token.kind = .star ∨ token.kind = .slash ∨ token.kind = .closeParen

/-- A significant token that opens no operand is misplaced where one should come. -/
theorem misplaced_of_not {token : Token} (significant : token.isSignificant = true)
    (notNumber : token.kind ≠ .number) (notOpen : token.kind ≠ .openParen)
    (notSign : Precedence.isSign token.kind = false) : token.Misplaced := by
  unfold isSignificant at significant
  unfold Misplaced
  cases kind : token.kind with
  | star => exact .inl rfl
  | slash => exact .inr (.inl rfl)
  | closeParen => exact .inr (.inr rfl)
  | number => exact absurd kind notNumber
  | openParen => exact absurd kind notOpen
  | plus | minus => simp [kind, Precedence.isSign] at notSign
  | whitespace | invalid | endOfFile => simp [kind, Kind.isSignificant] at significant

end Token

namespace Parser

variable {tokens dropped : List Token} {parser : Parser}

/-! ### Stuck parsers -/

/-- The token that comes next neither goes on with an expression nor closes a parenthesis. -/
def Stuck (parser : Parser) : Prop :=
  parser.current.kind = .number ∨ parser.current.kind = .openParen ∨
    parser.current.kind = .endOfFile

theorem kind_current_of_spent (spent : parser.rest = []) : parser.current.kind = .endOfFile := by
  rw [current_of_rest_nil spent]
  rfl

theorem not_stuck_of_above? {outer precedence : Precedence}
    (binds : outer.above? parser.current.kind = some precedence) : ¬ parser.Stuck := by
  rintro (kind | kind | kind)
  all_goals
    rw [kind] at binds
    cases binds

theorem not_stuck_of_closeParen (closes : parser.current.kind = .closeParen) : ¬ parser.Stuck := by
  rintro (kind | kind | kind)
  all_goals
    rw [kind] at closes
    cases closes

/-- Where an expression ends and no parenthesis closes, the parser is stuck. -/
theorem stuck_of_ends (significant : ∀ token ∈ parser.rest, token.isSignificant = true)
    (ends : Precedence.lowest.above? parser.current.kind = none)
    (lacks : parser.current.kind ≠ .closeParen) : parser.Stuck := by
  by_cases spent : parser.rest = []
  · exact .inr (.inr (kind_current_of_spent spent))
  · have known := significant parser.current (current_mem spent)
    unfold Token.isSignificant at known
    unfold Stuck
    cases kind : parser.current.kind with
    | number => exact .inl rfl
    | openParen => exact .inr (.inl rfl)
    | endOfFile => exact .inr (.inr rfl)
    | closeParen => exact absurd kind lacks
    | plus | minus | star | slash =>
      rw [kind] at ends
      cases ends
    | whitespace | invalid => simp [kind, Token.Kind.isSignificant] at known

/-! ### Clear and settled states -/

/-- Of the tokens some were dropped, in their order and before those that are left. -/
structure Drops (tokens dropped : List Token) (parser : Parser) : Prop where
  kept : (dropped ++ parser.rest).Sublist tokens
  misplaced : ∀ token ∈ dropped, token.Misplaced

theorem Drops.significant (drops : Drops tokens dropped parser)
    (significant : ∀ token ∈ tokens, token.isSignificant = true) :
    ∀ token ∈ parser.rest, token.isSignificant = true :=
  fun token left => significant token (drops.kept.subset (List.mem_append_right _ left))

/-- What was dropped stays dropped while tokens are taken or given up. -/
theorem Drops.skip {after : Parser} (drops : Drops tokens dropped parser)
    (later : after.rest.Sublist parser.rest) : Drops tokens dropped after :=
  ⟨(later.append_left dropped).trans drops.kept, drops.misplaced⟩

/-- The parser has not halted, and it has reported nothing but tokens that it dropped. -/
def Clear (tokens : List Token) (parser : Parser) : Prop :=
  parser.halted = false ∧
    ∃ dropped, Drops tokens dropped parser ∧
      parser.faults.toList = dropped.map Token.noOperand

/-- Behind the tokens that it dropped, the parser has reported no more than one kind of ending. -/
inductive Settled (tokens : List Token) (parser : Parser) : Prop
  /-- An operand was missing at the end of the line, and closing parentheses where the parser is
  stuck. -/
  | running {dropped : List Token} {absent unclosed : Nat} (drops : Drops tokens dropped parser)
      (running : parser.halted = false) (once : absent ≤ 1) (spent : 0 < absent → parser.rest = [])
      (stuck : 0 < unclosed → parser.Stuck)
      (faults : parser.faults.toList = dropped.map Token.noOperand ++
        (List.replicate absent parser.current.noOperand ++
          List.replicate unclosed parser.current.noClosing))
  /-- A limit was exceeded. -/
  | halted {dropped : List Token} {fault : Located ParseFault} (drops : Drops tokens dropped parser)
      (halted : parser.halted = true) (spent : parser.rest = [])
      (limit : fault.value.isLimit = true)
      (faults : parser.faults.toList = dropped.map Token.noOperand ++ [fault])

theorem Clear.settled (clear : Clear tokens parser) : Settled tokens parser := by
  obtain ⟨running, dropped, drops, faults⟩ := clear
  have never {claim : Prop} : 0 < 0 → claim := fun some => absurd some (Nat.lt_irrefl _)
  exact @Settled.running _ _ dropped 0 0 drops running (Nat.zero_le _) never never
    (by simpa using faults)

theorem Settled.significant (settled : Settled tokens parser)
    (significant : ∀ token ∈ tokens, token.isSignificant = true) :
    ∀ token ∈ parser.rest, token.isSignificant = true := by
  cases settled with
  | running drops _ _ _ _ _ => exact drops.significant significant
  | halted drops _ _ _ _ => exact drops.significant significant

/-- **A parser that is not stuck is clear.** -/
theorem Settled.clear (settled : Settled tokens parser) (goesOn : ¬ parser.Stuck) :
    Clear tokens parser := by
  have more : parser.rest ≠ [] := fun spent => goesOn (.inr (.inr (kind_current_of_spent spent)))
  cases settled with
  | @running dropped absent unclosed drops running once spent stuck faults =>
    obtain rfl : absent = 0 := Nat.eq_zero_of_not_pos fun some => more (spent some)
    obtain rfl : unclosed = 0 := Nat.eq_zero_of_not_pos fun some => goesOn (stuck some)
    exact ⟨running, dropped, drops, by simpa using faults⟩
  | halted drops halted spent limit faults => exact absurd spent more

/-! ### Moves -/

theorem Clear.advance (clear : Clear tokens parser) : Clear tokens parser.advance := by
  obtain ⟨running, dropped, drops, faults⟩ := clear
  exact ⟨running, dropped, drops.skip parser.rest.tail_sublist, faults⟩

theorem Clear.advanceOperator (clear : Clear tokens parser) :
    Clear tokens parser.advanceOperator := by
  obtain ⟨running, dropped, drops, faults⟩ := clear
  exact ⟨running, dropped, drops.skip parser.rest.tail_sublist, faults⟩

/-- The parser when it has reported the token that comes where an operand should, and dropped it. -/
def discard (parser : Parser) : Parser :=
  (parser.report (.expectedExpression parser.current.kind) parser.current.span).advance

@[simp]
theorem rest_discard (parser : Parser) : parser.discard.rest = parser.rest.tail := by
  simp [discard]

@[simp]
theorem halted_discard (parser : Parser) : parser.discard.halted = parser.halted := by
  simp [discard]

@[simp]
theorem stop_discard (parser : Parser) : parser.discard.stop = parser.stop := stop_report ..

theorem faults_discard (running : parser.halted = false) :
    parser.discard.faults.toList = parser.faults.toList ++ [parser.current.noOperand] := by
  rw [discard, faults_advance, faults_report running, Array.toList_push]
  rfl

/-- **A token that is misplaced** is dropped, and the reading goes on. -/
theorem Clear.discard (clear : Clear tokens parser) (misplaced : parser.current.Misplaced) :
    Clear tokens parser.discard := by
  obtain ⟨running, dropped, drops, faults⟩ := clear
  have more : parser.current.kind ≠ .endOfFile := by
    intro ended
    simp [Token.Misplaced, ended] at misplaced
  refine ⟨by rwa [halted_discard], dropped ++ [parser.current], ⟨?_, ?_⟩, ?_⟩
  · rw [rest_discard, List.append_assoc, List.singleton_append, ← rest_eq_cons more]
    exact drops.kept
  · exact List.forall_mem_append.mpr ⟨drops.misplaced, List.forall_mem_singleton.mpr misplaced⟩
  · rw [faults_discard running, faults, List.map_append, List.map_singleton]

/-- **At the end of the line** nothing is dropped, and no operand can come any more. -/
theorem Clear.discard_of_spent (clear : Clear tokens parser) (spent : parser.rest = []) :
    Settled tokens parser.discard := by
  obtain ⟨running, dropped, drops, faults⟩ := clear
  have still : parser.discard.rest = [] := by rw [rest_discard, spent, List.tail_nil]
  have same : parser.discard.current = parser.current := by
    rw [current_of_rest_nil still, current_of_rest_nil spent, stop_discard]
  refine @Settled.running _ _ dropped 1 0 (drops.skip ?_) ?_ (Nat.le_refl _) (fun _ => still) ?_ ?_
  · rw [still]
    exact List.nil_sublist _
  · rwa [halted_discard]
  · exact fun some => absurd some (Nat.lt_irrefl _)
  · rw [faults_discard running, faults, same]
    rfl

/-- **Where a closing parenthesis should come** and the parser is stuck, it stays so. -/
theorem Settled.supply (settled : Settled tokens parser) (stuck : parser.Stuck) :
    Settled tokens
      (parser.report (.expectedCloseParen parser.current.kind) parser.current.span) := by
  cases settled with
  | @running dropped absent unclosed drops running once spent _ faults =>
    refine @Settled.running _ _ dropped absent (unclosed + 1) (drops.skip ?_) ?_ once ?_ ?_ ?_
    · simp
    · rwa [halted_report]
    · rwa [rest_report]
    · intro _
      rwa [Stuck, current_report]
    · rw [faults_report running, Array.toList_push, faults, current_report, List.replicate_succ']
      simp only [List.append_assoc]
      rfl
  | halted drops halted spent limit faults =>
    rw [report_of_halted halted]
    exact .halted drops halted spent limit faults

theorem Clear.halt (clear : Clear tokens parser) {limit : ParseFault}
    (isLimit : limit.isLimit = true) : Settled tokens (parser.halt limit) := by
  obtain ⟨running, dropped, drops, faults⟩ := clear
  have halted : (parser.halt limit).faults.toList =
      dropped.map Token.noOperand ++ [⟨limit, parser.current.span⟩] := by
    rw [faults_halt running, Array.toList_push, faults]
  exact .halted (drops.skip (List.nil_sublist _)) rfl rfl isLimit halted

/-! ### Readings -/

/-- In which states a goal may be set: an operand in a clear state only. -/
def Goal.Allowed (tokens : List Token) : Goal → Parser → Prop
  | chain _ _, parser => Settled tokens parser
  | operand, parser | expression _, parser => Clear tokens parser

/-- **A reading leads to a settled state**, in which nothing is taken unless it is clear. -/
theorem Reads.settled {levels : Nat} {goal : Goal} {before after : Parser} {expr : Expr}
    (reads : Reads levels goal before expr after)
    (significant : ∀ token ∈ tokens, token.isSignificant = true)
    (allowed : goal.Allowed tokens before) : Settled tokens after := by
  induction reads with
  | number _ => exact (Clear.advance allowed).settled
  | closed _ _ closes ih =>
    have inner := ih (Clear.advance allowed)
    exact (inner.clear (not_stuck_of_closeParen closes)).advance.settled
  | unclosed _ reads lacks ih =>
    have inner := ih (Clear.advance allowed)
    -- what was read goes on as far as it can, so the token that comes next is no operator
    exact inner.supply
      (stuck_of_ends (inner.significant significant) (reads.derives trivial).2 lacks)
  | @absent levels parser notNumber notOpen notSign =>
    have clear : Clear tokens parser := allowed
    by_cases spent : parser.rest = []
    · exact clear.discard_of_spent spent
    · have known := clear.settled.significant significant parser.current (current_mem spent)
      exact (clear.discard (Token.misplaced_of_not known notNumber notOpen notSign)).settled
  | signed _ _ ih => exact ih (Clear.advance allowed)
  | stop _ => exact allowed
  | link binds _ _ _ ihRight ihRest =>
    -- the left operand may have ended anyhow, but an operator follows only where it ended clear
    have clear := Settled.clear allowed (not_stuck_of_above? binds)
    exact ihRest (ihRight clear.advanceOperator)
  | tooLong binds _ => exact (Settled.clear allowed (not_stuck_of_above? binds)).halt rfl
  | expression _ _ ihLeft ihRest => exact ihRest (ihLeft allowed)
  | tooDeep => exact Clear.halt allowed rfl

end Parser

end IntCalc
