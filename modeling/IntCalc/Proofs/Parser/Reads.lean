/-
**Reading as a relation.**

`Reads levels goal before expr after` says that a parser with the given number of levels, set on a
goal, goes from the state `before` to the state `after` and has read `expr`. There is one rule for
each thing that a parser can do, with the condition under which it does it. The relation and the
functions of the parser say the same (`reads_iff_run_eq`), so what holds of all readings is proved
by induction on the rules, and a reading is found by putting rules together.
-/
import IntCalc.Parser.Expression

namespace IntCalc.Parser

/-! ### Goals -/

/-- What a parser is set on. -/
inductive Goal where
  /-- A leading operand, with the signs before it. -/
  | operand
  /-- An expression whose first part has been read already. -/
  | chain (outer : Precedence) (left : Expr)
  /-- An expression at a precedence. -/
  | expression (outer : Precedence)

/-- What the parser does about a goal. -/
def Goal.run (levels : Nat) : Goal → Parser → Expr × Parser
  | operand => signed (Parser.expression levels)
  | chain outer left => Parser.chain (Parser.expression levels) outer left
  | expression outer => (Parser.expression levels).run outer

/-! ### Rules -/

/-- The parser reads an expression for a goal and changes its state. -/
inductive Reads : Nat → Goal → Parser → Expr → Parser → Prop
  | number {levels : Nat} {parser : Parser} (next : parser.current.kind = .number) :
      Reads levels .operand parser (.number parser.current) parser.advance
  | closed {levels : Nat} {parser middle : Parser} {inner : Expr}
      (next : parser.current.kind = .openParen)
      (reads : Reads levels (.expression .lowest) parser.advance inner middle)
      (closes : middle.current.kind = .closeParen) :
      Reads levels .operand parser (.paren parser.current inner middle.current) middle.advance
  | unclosed {levels : Nat} {parser middle : Parser} {inner : Expr}
      (next : parser.current.kind = .openParen)
      (reads : Reads levels (.expression .lowest) parser.advance inner middle)
      (lacks : middle.current.kind ≠ .closeParen) :
      Reads levels .operand parser
        (.paren parser.current inner (.missing .closeParen middle.current.position))
        (middle.report (.expectedCloseParen middle.current.kind) middle.current.span)
  | absent {levels : Nat} {parser : Parser} (notNumber : parser.current.kind ≠ .number)
      (notOpen : parser.current.kind ≠ .openParen)
      (notSign : Precedence.isSign parser.current.kind = false) :
      Reads levels .operand parser (.number (.absentNumber parser.current.position))
        (parser.report (.expectedExpression parser.current.kind) parser.current.span).advance
  | signed {levels : Nat} {parser after : Parser} {operand : Expr}
      (next : Precedence.isSign parser.current.kind = true)
      (reads : Reads levels (.expression .sign) parser.advance operand after) :
      Reads levels .operand parser (.unary parser.current operand) after
  | stop {levels : Nat} {parser : Parser} {outer : Precedence} {left : Expr}
      (ends : outer.above? parser.current.kind = none) :
      Reads levels (.chain outer left) parser left parser
  | link {levels : Nat} {parser middle after : Parser} {outer precedence : Precedence}
      {left right whole : Expr} (binds : outer.above? parser.current.kind = some precedence)
      (few : parser.operators < maxOperators)
      (reads : Reads levels (.expression precedence) parser.advanceOperator right middle)
      (goesOn : Reads levels (.chain outer (.binary left parser.current right)) middle whole
        after) :
      Reads levels (.chain outer left) parser whole after
  | tooLong {levels : Nat} {parser : Parser} {outer precedence : Precedence} {left : Expr}
      (binds : outer.above? parser.current.kind = some precedence)
      (many : maxOperators ≤ parser.operators) :
      Reads levels (.chain outer left) parser left (parser.halt .tooLong)
  | expression {levels : Nat} {parser middle after : Parser} {outer : Precedence}
      {left whole : Expr} (reads : Reads levels .operand parser left middle)
      (goesOn : Reads levels (.chain outer left) middle whole after) :
      Reads (levels + 1) (.expression outer) parser whole after
  | tooDeep {parser : Parser} {outer : Precedence} :
      Reads 0 (.expression outer) parser (.number (.absentNumber parser.stop))
        (parser.halt .tooDeep)

/-! ### The relation is the function -/

/-- What the rules lead to is what the functions answer. -/
theorem Reads.run_eq {levels : Nat} {goal : Goal} {before after : Parser} {expr : Expr}
    (reads : Reads levels goal before expr after) : goal.run levels before = (expr, after) := by
  induction reads with
  | number next => simp [Goal.run, Parser.signed, primary, Precedence.isSign, next]
  | closed next _ closes ih =>
    simp only [Goal.run] at ih
    simp [Goal.run, Parser.signed, primary, Precedence.isSign, next, ih, closeParen, closes]
  | unclosed next _ lacks ih =>
    simp only [Goal.run] at ih
    simp [Goal.run, Parser.signed, primary, Precedence.isSign, next, ih, closeParen, lacks]
  | absent notNumber notOpen notSign =>
    simp only [Goal.run, Parser.signed, notSign, Bool.false_eq_true, if_false]
    unfold primary
    split
    · contradiction
    · contradiction
    · rfl
  | signed next _ ih =>
    simp only [Goal.run] at ih
    simp [Goal.run, Parser.signed, next, ih]
  | stop ends =>
    simp only [Goal.run]
    unfold Parser.chain
    split
    · rfl
    · simp_all
  | link binds few _ _ ihRight ihRest =>
    simp only [Goal.run] at ihRight ihRest ⊢
    unfold Parser.chain
    split
    · simp_all
    · rename_i precedence found
      obtain rfl : precedence = _ := Option.some.inj (found.symm.trans binds)
      rw [if_pos few, ihRight, ihRest]
  | tooLong binds many =>
    simp only [Goal.run]
    unfold Parser.chain
    split
    · simp_all
    · rw [if_neg (Nat.not_lt.mpr many)]
  | expression _ _ ihLeft ihRest =>
    simp only [Goal.run] at ihLeft ihRest ⊢
    simp only [Parser.expression, ihLeft, ihRest]
  | tooDeep => simp [Goal.run, Parser.expression, position_current_halt]

section Functions

variable {levels : Nat}

/-- A leading operand is read by the rules if expressions are. -/
theorem reads_operand
    (inner : ∀ outer parser, Reads levels (.expression outer) parser
      ((expression levels).run outer parser).1 ((expression levels).run outer parser).2)
    (parser : Parser) :
    Reads levels .operand parser (signed (expression levels) parser).1
      (signed (expression levels) parser).2 := by
  unfold signed
  split
  · rename_i next
    exact .signed next (inner _ _)
  · rename_i notSign
    unfold primary
    split
    · rename_i next
      exact .number next
    · rename_i next
      by_cases closes : ((expression levels).run .lowest parser.advance).2.current.kind = .closeParen
      · simp only [closeParen, if_pos closes]
        exact .closed next (inner _ _) closes
      · simp only [closeParen, if_neg closes]
        exact .unclosed next (inner _ _) closes
    · rename_i notNumber notOpen
      exact .absent notNumber notOpen (Bool.eq_false_iff.mpr notSign)

theorem reads_chain
    (inner : ∀ outer parser, Reads levels (.expression outer) parser
      ((expression levels).run outer parser).1 ((expression levels).run outer parser).2)
    (outer : Precedence) (left : Expr) (parser : Parser) :
    Reads levels (.chain outer left) parser (chain (expression levels) outer left parser).1
      (chain (expression levels) outer left parser).2 := by
  fun_induction chain (expression levels) outer left parser with
  | case1 left parser ends => exact .stop ends
  | case2 left parser precedence binds few right ih => exact .link binds few (inner _ _) ih
  | case3 left parser precedence binds many => exact .tooLong binds (Nat.not_lt.mp many)

end Functions

theorem reads_expression (levels : Nat) (outer : Precedence) (parser : Parser) :
    Reads levels (.expression outer) parser ((expression levels).run outer parser).1
      ((expression levels).run outer parser).2 := by
  induction levels generalizing outer parser with
  | zero =>
    simp only [expression, position_current_halt]
    exact .tooDeep
  | succ levels ih =>
    exact .expression (reads_operand ih parser) (reads_chain ih outer _ _)

theorem reads_run (levels : Nat) (goal : Goal) (parser : Parser) :
    Reads levels goal parser (goal.run levels parser).1 (goal.run levels parser).2 := by
  cases goal with
  | operand => exact reads_operand (reads_expression levels) parser
  | chain outer left => exact reads_chain (reads_expression levels) outer left parser
  | expression outer => exact reads_expression levels outer parser

/-- **The rules and the functions of the parser agree.** -/
theorem reads_iff_run_eq {levels : Nat} {goal : Goal} {before after : Parser} {expr : Expr} :
    Reads levels goal before expr after ↔ goal.run levels before = (expr, after) := by
  constructor
  · exact Reads.run_eq
  · intro answered
    have reads := reads_run levels goal before
    rwa [answered] at reads

end IntCalc.Parser
