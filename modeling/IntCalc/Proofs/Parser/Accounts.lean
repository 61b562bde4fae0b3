/-
**What becomes of the tokens.**

A parser takes tokens, drops them, gives them up in bulk and puts in tokens that the line does not
have. The books are kept step by step, for any tokens and any order of the steps:

* `Moves.sublist`: the leaves that are not put in, with the tokens that are left, are among the
  tokens in their order;
* `Moves.accounted`: a token that is neither a leaf nor left is one that a fault answers for, either
  one of its own or a limit that was exceeded at the token or before it;
* `Moves.count_number`: every number that is put in is paid for by a fault;
* `Moves.count_closing`: so is every closing parenthesis, as long as the parser has not halted;
* `Moves.count_limit`: a parser that has halted has recorded one limit, any other parser none.
-/
import IntCalc.Proofs.Parser.Steps

namespace IntCalc

/-! ### Kinds of tokens and of faults -/

/-- Whether a token is put in: the line has no text for it. -/
def Token.isPutIn (token : Token) : Bool := token.text = ""

/-- Whether a token of a kind is put in. -/
def Token.standsFor (kind : Token.Kind) (token : Token) : Bool := token.isPutIn && token.kind = kind

namespace ParseFault

/-- Whether a number is put in for a missing operand. -/
def lacksOperand : ParseFault → Bool
  | expectedExpression _ => true
  | _ => false

def lacksClosing : ParseFault → Bool
  | expectedCloseParen _ => true
  | _ => false

def isLimit : ParseFault → Bool
  | tooDeep | tooLong => true
  | _ => false

end ParseFault

/-- Faults answer for a token: it was met where an operand should come, or it stands where a limit
was exceeded or behind that place. -/
def Excused (faults : List (Located ParseFault)) (token : Token) : Prop :=
  ⟨.expectedExpression token.kind, token.span⟩ ∈ faults ∨
    ∃ fault ∈ faults, fault.value.isLimit = true ∧ fault.span.start ≤ token.position

theorem Excused.append {faults : List (Located ParseFault)} {token : Token}
    (excused : Excused faults token) (others : List (Located ParseFault)) :
    Excused (faults ++ others) token := by
  rcases excused with own | ⟨fault, member, limit, behind⟩
  · exact .inl (List.mem_append_left _ own)
  · exact .inr ⟨fault, List.mem_append_left _ member, limit, behind⟩

namespace Parser

variable {before after start finish : Parser} {leaves : List Token}

/-! ### Leaves are tokens -/

theorem sublist_take (parser : Parser) (more : parser.current.kind ≠ .endOfFile) :
    ([parser.current].filter (!·.isPutIn) ++ parser.rest.tail).Sublist parser.rest := by
  have kept := (List.filter_sublist (p := (!·.isPutIn)) (l := [parser.current])).append_right
    parser.rest.tail
  rwa [List.singleton_append, ← rest_eq_cons more] at kept

theorem Step.sublist (step : Step before leaves after) :
    (leaves.filter (!·.isPutIn) ++ after.rest).Sublist before.rest := by
  cases step with
  | take more | takeOperator more few => exact sublist_take before more
  | drop _ _ _ => simpa [Token.isPutIn, Token.absentNumber] using before.rest.tail_sublist
  | supply lacks => simp [Token.isPutIn, Token.missing]
  | tooDeep _ | tooLong _ => simp [Token.isPutIn, Token.absentNumber]

/-- **The leaves that are not put in, with the tokens that are left**, are among the tokens. -/
theorem Moves.sublist (moves : Moves start leaves finish) :
    (leaves.filter (!·.isPutIn) ++ finish.rest).Sublist start.rest := by
  induction moves with
  | refl => exact List.Sublist.refl _
  | @step middle finish leaves added moves last ih =>
    rw [List.filter_append, List.append_assoc]
    exact (last.sublist.append_left _).trans ih

/-- The tokens that are left are some of the first ones, in their order. -/
theorem Moves.rest_sublist (moves : Moves start leaves finish) : finish.rest.Sublist start.rest :=
  (List.sublist_append_right _ _).trans moves.sublist

/-! ### Tokens are leaves, left or excused -/

/-- The limit that halts a parser answers for all tokens that are given up. -/
theorem excused_halt {parser : Parser} {token : Token} {limit : ParseFault}
    (running : parser.halted = false) (isLimit : limit.isLimit = true)
    (ordered : parser.rest.Pairwise (·.position ≤ ·.position)) (given : token ∈ parser.rest) :
    Excused (parser.halt limit).faults.toList token := by
  refine .inr ⟨⟨limit, parser.current.span⟩, ?_, isLimit, ?_⟩
  · rw [faults_halt running, Array.toList_push]
    exact List.mem_append_right _ List.mem_cons_self
  · cases rest : parser.rest with
    | nil => simp [rest] at given
    | cons first others =>
      rw [rest] at ordered given
      rw [Token.start_span, current_of_rest rest]
      rcases List.mem_cons.mp given with rfl | later
      · exact Nat.le_refl _
      · exact List.rel_of_pairwise_cons ordered later

theorem Step.accounted (step : Step before leaves after)
    (ordered : before.rest.Pairwise (·.position ≤ ·.position)) {token : Token}
    (given : token ∈ before.rest) :
    token ∈ leaves ∨ token ∈ after.rest ∨ Excused after.faults.toList token := by
  cases step with
  | take more | takeOperator more few =>
    rw [rest_eq_cons more] at given
    rcases List.mem_cons.mp given with rfl | later
    · exact .inl List.mem_cons_self
    · exact .inr (.inl later)
  | drop running _ _ =>
    cases rest : before.rest with
    | nil => simp [rest] at given
    | cons first others =>
      rw [rest] at given
      rcases List.mem_cons.mp given with rfl | later
      · refine .inr (.inr (.inl ?_))
        rw [faults_advance, faults_report running, Array.toList_push, current_of_rest rest]
        exact List.mem_append_right _ List.mem_cons_self
      · refine .inr (.inl ?_)
        rwa [rest_advance, rest_report, rest]
  | supply lacks => exact .inr (.inl (by rwa [rest_report]))
  | tooDeep running | tooLong running => exact .inr (.inr (excused_halt running rfl ordered given))

/-- **A token is a leaf, or it is left, or a fault answers for it.** -/
theorem Moves.accounted (moves : Moves start leaves finish)
    (ordered : start.rest.Pairwise (·.position ≤ ·.position)) {token : Token}
    (given : token ∈ start.rest) :
    token ∈ leaves ∨ token ∈ finish.rest ∨ Excused finish.faults.toList token := by
  induction moves with
  | refl => exact .inr (.inl given)
  | @step middle finish leaves added moves last ih =>
    obtain ⟨later, faults⟩ := last.exists_faults
    rcases ih with leaf | left | excused
    · exact .inl (List.mem_append_left _ leaf)
    · exact (last.accounted (ordered.sublist moves.rest_sublist) left).imp_left (List.mem_append_right _)
    · exact .inr (.inr (faults ▸ excused.append later))

/-! ### Counting faults -/

/-- The number of faults of some sort that have been recorded. -/
def count (parser : Parser) (test : ParseFault → Bool) : Nat :=
  parser.faults.toList.countP (test ·.value)

@[simp]
theorem count_advance (parser : Parser) (test : ParseFault → Bool) :
    parser.advance.count test = parser.count test := rfl

theorem count_report {parser : Parser} (running : parser.halted = false) (fault : ParseFault)
    (span : Span) (test : ParseFault → Bool) :
    (parser.report fault span).count test = parser.count test + if test fault then 1 else 0 := by
  rw [count, faults_report running, Array.toList_push, List.countP_append, List.countP_singleton]
  rfl

/-- A fault of another sort changes nothing, whether it is recorded or not. -/
theorem count_report_of_false (parser : Parser) {fault : ParseFault} (span : Span)
    {test : ParseFault → Bool} (other : test fault = false) :
    (parser.report fault span).count test = parser.count test := by
  cases halted : parser.halted with
  | false => rw [count_report halted, other, if_neg Bool.false_ne_true, Nat.add_zero]
  | true => rw [report_of_halted halted]

theorem count_halt {parser : Parser} (running : parser.halted = false) (limit : ParseFault)
    (test : ParseFault → Bool) :
    (parser.halt limit).count test = parser.count test + if test limit then 1 else 0 :=
  count_report running limit parser.current.span test

/-! ### What is put in is paid for -/

theorem countP_take (parser : Parser) (more : parser.current.kind ≠ .endOfFile)
    (written : ∀ token ∈ parser.rest, token.isPutIn = false) (kind : Token.Kind) :
    [parser.current].countP (·.standsFor kind) = 0 := by
  have given : parser.current ∈ parser.rest := by
    rw [rest_eq_cons more]
    exact List.mem_cons_self
  simp [Token.standsFor, written _ given]

theorem Step.count_number (step : Step before leaves after)
    (written : ∀ token ∈ before.rest, token.isPutIn = false) :
    after.count (·.lacksOperand) + after.count (· = .tooDeep) =
      before.count (·.lacksOperand) + before.count (· = .tooDeep) +
        leaves.countP (·.standsFor .number) := by
  cases step with
  | take more | takeOperator more few =>
    rw [countP_take before more written]
    rfl
  | drop running _ _ =>
    rw [count_advance, count_advance, count_report running, count_report_of_false _ _ rfl]
    simp [ParseFault.lacksOperand, Token.standsFor, Token.isPutIn, Token.absentNumber]
    omega
  | supply lacks =>
    rw [count_report_of_false _ _ rfl, count_report_of_false _ _ rfl]
    simp [Token.standsFor, Token.missing]
  | tooDeep running =>
    rw [count_halt running, count_halt running]
    simp [ParseFault.lacksOperand, Token.standsFor, Token.isPutIn, Token.absentNumber]
    omega
  | tooLong running =>
    rw [count_halt running, count_halt running]
    simp [ParseFault.lacksOperand]

/-- **Every number that is put in is paid for**, by the fault of a missing operand or by the limit on
nesting. -/
theorem Moves.count_number (moves : Moves start leaves finish)
    (written : ∀ token ∈ start.rest, token.isPutIn = false) :
    finish.count (·.lacksOperand) + finish.count (· = .tooDeep) =
      start.count (·.lacksOperand) + start.count (· = .tooDeep) +
        leaves.countP (·.standsFor .number) := by
  induction moves with
  | refl => rfl
  | @step middle finish leaves added moves last ih =>
    have stillWritten : ∀ token ∈ middle.rest, token.isPutIn = false :=
      fun token member => written token (moves.rest_sublist.subset member)
    rw [last.count_number stillWritten, ih, List.countP_append, Nat.add_assoc]

theorem Step.count_closing (step : Step before leaves after) (running : after.halted = false)
    (written : ∀ token ∈ before.rest, token.isPutIn = false) :
    before.halted = false ∧
      after.count (·.lacksClosing) =
        before.count (·.lacksClosing) + leaves.countP (·.standsFor .closeParen) := by
  cases step with
  | take more | takeOperator more few =>
    rw [countP_take before more written]
    exact ⟨running, rfl⟩
  | drop wasRunning _ _ =>
    refine ⟨wasRunning, ?_⟩
    rw [count_advance, count_report_of_false _ _ rfl]
    simp [Token.standsFor, Token.absentNumber]
  | supply lacks =>
    rw [halted_report] at running
    refine ⟨running, ?_⟩
    rw [count_report running]
    simp [ParseFault.lacksClosing, Token.standsFor, Token.isPutIn, Token.missing]
  | tooDeep _ | tooLong _ => cases running

/-- **Every closing parenthesis that is put in is paid for** by the fault that it is missing, as long
as no limit is exceeded. -/
theorem Moves.count_closing (moves : Moves start leaves finish) (running : finish.halted = false)
    (written : ∀ token ∈ start.rest, token.isPutIn = false) :
    finish.count (·.lacksClosing) =
      start.count (·.lacksClosing) + leaves.countP (·.standsFor .closeParen) := by
  induction moves with
  | refl => rfl
  | @step middle finish leaves added moves last ih =>
    have stillWritten : ∀ token ∈ middle.rest, token.isPutIn = false :=
      fun token member => written token (moves.rest_sublist.subset member)
    obtain ⟨wasRunning, counted⟩ := last.count_closing running stillWritten
    rw [counted, ih wasRunning, List.countP_append, Nat.add_assoc]

/-! ### Limits -/

theorem Step.count_limit (step : Step before leaves after) :
    after.count (·.isLimit) + before.halted.toNat =
      before.count (·.isLimit) + after.halted.toNat := by
  cases step with
  | take more | takeOperator more few => rfl
  | drop _ _ _ =>
    rw [count_advance, count_report_of_false _ _ rfl, halted_advance, halted_report]
  | supply lacks => rw [count_report_of_false _ _ rfl, halted_report]
  | tooDeep running | tooLong running =>
    rw [count_halt running, running]
    rfl

/-- **A parser that halts records one limit**, and no other limit is ever recorded. -/
theorem Moves.count_limit (moves : Moves start leaves finish) :
    finish.count (·.isLimit) + start.halted.toNat =
      start.count (·.isLimit) + finish.halted.toNat := by
  induction moves with
  | refl => rfl
  | step _ last ih =>
    have counted := last.count_limit
    omega

end Parser

end IntCalc
