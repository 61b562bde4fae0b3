/-
**Reading that exceeds a limit.**

If the tokens that come next are the leaves of a tree of the grammar that exceeds a limit, the parser
halts at the token where reading this tree breaks off, and that is all it records
(`haltsAtFront_of_derives`). What is read before that token fits the limits, so it is read as its
tree is (`readAtFront_of_derives`). After that token nothing is left to read, and every goal that is
still open is closed without a record: a chain stops, an operand ends, and the closing parentheses
that are put in are not reported by a parser that has halted.

What follows the tree plays no part, since the parser never gets there.
-/
import IntCalc.Proofs.Excess
import IntCalc.Proofs.Parser.Completeness

namespace IntCalc.Parser

/-! ### Halting at a token -/

/-- **A parser has halted at a token**: it has recorded a fault there and nothing else, and has no
tokens left. -/
structure HaltedAt (before : Parser) (cause : ParseFault) (token : Token) (after : Parser) :
    Prop where
  halted : after.halted = true
  spent : after.rest = []
  faults : after.faults = before.faults.push ⟨cause, token.span⟩

/-- A goal is read in such a way that the parser halts at one of the tokens before it. -/
def Halts (levels : Nat) (goal : Goal) (before : Parser) (cause : ParseFault) (place : Nat) : Prop :=
  ∃ token expr after, before.rest[place]? = some token ∧ Reads levels goal before expr after ∧
    HaltedAt before cause token after

theorem haltedAt_halt {parser : Parser} {token : Token} {rest : List Token}
    (running : parser.halted = false) (next : parser.rest = token :: rest) (limit : ParseFault) :
    HaltedAt parser limit token (parser.halt limit) :=
  ⟨rfl, rfl, by rw [faults_halt running, current_of_rest next]⟩

namespace HaltedAt

variable {before after : Parser} {cause : ParseFault} {token : Token}

theorem current_kind (halted : HaltedAt before cause token after) :
    after.current.kind = .endOfFile := by
  rw [current_of_rest_nil halted.spent]
  rfl

/-- No operator goes on behind a parser that has halted. -/
theorem reads_chain (halted : HaltedAt before cause token after) (levels : Nat)
    (outer : Precedence) (left : Expr) : Reads levels (.chain outer left) after left after := by
  refine .stop ?_
  rw [halted.current_kind]
  rfl

/-- Tokens that are taken before are not recorded. -/
theorem of_past {rest : List Token} {operators : Nat}
    (halted : HaltedAt (before.past rest operators) cause token after) :
    HaltedAt before cause token after :=
  ⟨halted.halted, halted.spent, halted.faults⟩

end HaltedAt

/-- A token behind the first one has its place counted from there on. -/
theorem getElem?_rest_of_past {before : Parser} {first token : Token} {rest : List Token}
    {operators place : Nat} (next : before.rest = first :: rest)
    (found : (before.past rest operators).rest[place]? = some token) :
    before.rest[1 + place]? = some token := by
  rw [next, Nat.add_comm, List.getElem?_cons_succ]
  exact found

namespace Halts

variable {levels place : Nat} {before : Parser} {cause : ParseFault} {rest : List Token}

/-- Without levels, an expression halts at once. -/
theorem tooDeep {first : Token} (next : before.rest = first :: rest)
    (running : before.halted = false) (outer : Precedence) :
    Halts 0 (.expression outer) before .tooDeep 0 :=
  ⟨first, _, _, by rw [next]; rfl, .tooDeep, haltedAt_halt running next .tooDeep⟩

/-- A chain halts at an operator that is one too many. -/
theorem tooLong {operator : Token} {outer precedence : Precedence}
    (next : before.rest = operator :: rest) (running : before.halted = false)
    (binds : outer.above? operator.kind = some precedence) (many : maxOperators ≤ before.operators)
    (left : Expr) : Halts levels (.chain outer left) before .tooLong 0 := by
  have front := current_of_rest next
  exact ⟨operator, _, _, by rw [next]; rfl, .tooLong (front ▸ binds) many,
    haltedAt_halt running next .tooLong⟩

/-- A chain halts where the right operand of its next operator does. -/
theorem link {operator : Token} {outer precedence : Precedence}
    (next : before.rest = operator :: rest)
    (binds : outer.above? operator.kind = some precedence) (few : before.operators < maxOperators)
    (halts : Halts levels (.expression precedence) (before.past rest 1) cause place) (left : Expr) :
    Halts levels (.chain outer left) before cause (1 + place) := by
  obtain ⟨token, right, after, found, reads, halted⟩ := halts
  have front := current_of_rest next
  rw [← advanceOperator_eq_past next] at reads
  exact ⟨token, _, after, getElem?_rest_of_past next found,
    .link (front ▸ binds) few reads (halted.reads_chain ..), halted.of_past⟩

/-- An expression halts where its leading operand does. -/
theorem expression (halts : Halts levels .operand before cause place) (outer : Precedence) :
    Halts (levels + 1) (.expression outer) before cause place := by
  obtain ⟨token, left, after, found, reads, halted⟩ := halts
  exact ⟨token, left, after, found, .expression reads (halted.reads_chain ..), halted⟩

/-- A sign halts where its operand does. -/
theorem signed {operator : Token} (next : before.rest = operator :: rest)
    (sign : Precedence.isSign operator.kind = true)
    (halts : Halts levels (.expression .sign) (before.past rest 0) cause place) :
    Halts levels .operand before cause (1 + place) := by
  obtain ⟨token, operand, after, found, reads, halted⟩ := halts
  have front := current_of_rest next
  rw [← advance_eq_past next] at reads
  exact ⟨token, _, after, getElem?_rest_of_past next found, .signed (front ▸ sign) reads,
    halted.of_past⟩

/-- Parentheses halt where the expression in them does; the closing one is put in silently. -/
theorem unclosed {opening : Token} (next : before.rest = opening :: rest)
    (opens : opening.kind = .openParen)
    (halts : Halts levels (.expression .lowest) (before.past rest 0) cause place) :
    Halts levels .operand before cause (1 + place) := by
  obtain ⟨token, inner, after, found, reads, halted⟩ := halts
  have front := current_of_rest next
  have lacks : after.current.kind ≠ .closeParen := by simp [halted.current_kind]
  rw [← advance_eq_past next] at reads
  have read := Reads.unclosed (front ▸ opens) reads lacks
  rw [report_of_halted halted.halted] at read
  exact ⟨token, _, after, getElem?_rest_of_past next found, read, halted.of_past⟩

end Halts

/-- What starts with a tree that is read whole halts behind that tree where the chain does. -/
theorem ReadAtFront.halts {category : Category} {tree : Expr} {levels place : Nat}
    {outer : Precedence} {before : Parser} {following : List Token} {cause : ParseFault}
    (front : ReadAtFront category tree) (le : category.rank ≤ outer.category.rank)
    (next : before.rest = tree.leaves ++ following)
    (bounded : category = .expr →
      Precedence.sum.above? (before.past following tree.operatorCount).current.kind = none)
    (fits : tree.nesting ≤ levels) (few : before.operators + tree.operatorCount ≤ maxOperators)
    (halts : Halts levels (.chain outer tree) (before.past following tree.operatorCount) cause
      place) :
    Halts (levels + 1) (.expression outer) before cause (tree.leaves.length + place) := by
  obtain ⟨token, whole, after, found, reads, halted⟩ := halts
  refine ⟨token, whole, after, ?_, front le next bounded fits few reads, halted.of_past⟩
  rw [next, List.getElem?_append_right (Nat.le_add_right _ _), Nat.add_sub_cancel_left]
  exact found

/-! ### Trees at the front -/

/-- A tree of a category at the front halts the parser where reading it breaks off. -/
def HaltsAtFront (category : Category) (tree : Expr) : Prop :=
  ∀ ⦃levels budget place : Nat⦄ ⦃cause : ParseFault⦄ ⦃outer : Precedence⦄ ⦃before : Parser⦄
    ⦃following : List Token⦄, category.rank ≤ outer.category.rank →
    before.rest = tree.leaves ++ following → before.halted = false →
    before.operators + budget = maxOperators → tree.BreaksOff levels budget cause place →
    Halts levels (.expression outer) before cause place

namespace HaltsAtFront

variable {category looser : Category} {tree : Expr}

theorem loosen (front : HaltsAtFront category tree) (le : category.rank ≤ looser.rank) :
    HaltsAtFront looser tree := by
  intro levels budget place cause outer before following fitsOuter
  exact front (Nat.le_trans le fitsOuter)

/-- Without levels the parser halts at the first leaf, whatever the tree is. -/
theorem halts_zero {before : Parser} {following : List Token}
    (next : before.rest = tree.leaves ++ following) (running : before.halted = false)
    (outer : Precedence) : Halts 0 (.expression outer) before .tooDeep 0 := by
  obtain ⟨first, others, leaves⟩ := List.exists_cons_of_ne_nil tree.leaves_ne_nil
  rw [leaves, List.cons_append] at next
  exact .tooDeep next running outer

/-- **An operator and its operands halt the parser at the front** if the operands do. -/
theorem binary {operator : Token} {precedence : Precedence} {left right : Expr}
    (joins : Precedence.ofBinary? operator.kind = some precedence)
    (reads : ReadAtFront precedence.chained left) (first : HaltsAtFront precedence.chained left)
    (second : HaltsAtFront precedence.category right) :
    HaltsAtFront precedence.chained (.binary left operator right) := by
  intro levels budget place cause outer before following le next running few breaks
  have binds := Precedence.above?_of_rank_chained_le joins le
  cases breaks with
  | tooDeep => exact halts_zero next running outer
  | left inside =>
    rw [Expr.leaves, List.append_assoc] at next
    exact first le next running few inside
  | tooLong shallow =>
    -- the left operand is read whole, and its operators are all that are allowed
    rw [Expr.leaves, List.append_assoc, List.cons_append] at next
    show Halts _ _ _ _ (left.leaves.length + 0)
    refine reads.halts le next (fun loose => Precedence.above?_sum_of_chained joins loose) shallow
      (by omega) ?_
    exact .tooLong (rest_past ..) running binds (by rw [operators_past]; omega) left
  | @right _ budget place _ _ _ _ shallow inside =>
    -- the left operand and the operator are read, and the right one is given all that they leave
    rw [Expr.leaves, List.append_assoc, List.cons_append] at next
    rw [Nat.add_assoc]
    refine reads.halts le next (fun loose => Precedence.above?_sum_of_chained joins loose) shallow
      (by omega) ?_
    refine .link (rest_past ..) binds (by rw [operators_past]; omega) ?_ left
    rw [past_past]
    exact second (Nat.le_refl _) (rest_past ..) running (by rw [operators_past]; omega) inside

end HaltsAtFront

/-- **Reading a tree of the grammar halts where it breaks off.** -/
theorem haltsAtFront_of_derives {category : Category} {tree : Expr}
    (derived : tree.Derives category) : HaltsAtFront category tree := by
  induction derived with
  | number isNumber =>
    intro levels budget place cause outer before following _ next running _ breaks
    cases breaks with
    | tooDeep => exact HaltsAtFront.halts_zero next running outer
  | paren opens _ _ ih =>
    intro levels budget place cause outer before following _ next running few breaks
    cases breaks with
    | tooDeep => exact HaltsAtFront.halts_zero next running outer
    | inner inside =>
      simp only [Expr.leaves, List.cons_append, List.append_assoc] at next
      refine (Halts.unclosed next opens ?_).expression outer
      exact ih (Nat.le_refl _) (rest_past ..) running few inside
  | signed sign _ ih =>
    intro levels budget place cause outer before following _ next running few breaks
    cases breaks with
    | tooDeep => exact HaltsAtFront.halts_zero next running outer
    | sign inside =>
      rw [Expr.leaves, List.cons_append] at next
      refine (Halts.signed next (Precedence.isSign_iff.mpr sign) ?_).expression outer
      exact ih (Nat.le_refl _) (rest_past ..) running few inside
  | product first joins _ ihFirst ihSecond =>
    exact HaltsAtFront.binary (Precedence.ofBinary?_eq_product_iff.mpr joins)
      (readAtFront_of_derives first) ihFirst ihSecond
  | sum first joins _ ihFirst ihSecond =>
    exact HaltsAtFront.binary (Precedence.ofBinary?_eq_sum_iff.mpr joins)
      (readAtFront_of_derives first) ihFirst ihSecond
  | unaryOfPrimary _ ih | termOfUnary _ ih | exprOfTerm _ ih => exact ih.loosen (by decide)

end IntCalc.Parser
