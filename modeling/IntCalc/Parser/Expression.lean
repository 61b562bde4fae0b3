/-
**Reading expressions.**

The grammar, from loose to tight:

    sum     := product (('+' | '-') product)*
    product := signed (('*' | '/') signed)*
    signed  := ('+' | '-') signed | number | '(' sum ')'

An expression is read as its leading operand followed by every operator that binds more tightly
than what stands around the expression, each with its right operand. Reading always ends in a
tree. Where an operand is missing a zero without text takes its place, and a token that cannot open
an operand is dropped; a missing closing parenthesis is put in, and nothing is dropped.

The depth of nesting is bounded by counting levels down: `expression levels` reads with that many
levels, of which signs, parentheses and right operands each take one. Within a level the operators
of a chain take a token each, so a chain ends because no reading gives tokens back
(`Reader.length_rest_run_le`).
-/
import IntCalc.Expr.Basic
import IntCalc.Parser.Precedence
import IntCalc.Parser.State

namespace IntCalc.Parser

/-- A way to read an expression at a precedence. It may take tokens and never gives any back. -/
structure Reader where
  run : Precedence → Parser → Expr × Parser
  length_rest_run_le (outer : Precedence) (parser : Parser) :
    (run outer parser).2.rest.length ≤ parser.rest.length

/-! ### Leading operands -/

/-- The closing parenthesis that should come next, put in where it does not come. -/
def closeParen (parser : Parser) : Token × Parser :=
  if parser.current.kind = .closeParen then
    (parser.current, parser.advance)
  else
    (.missing .closeParen parser.current.position,
      parser.report (.expectedCloseParen parser.current.kind) parser.current.span)

/-- A number or an expression in parentheses. Anything else is reported and dropped, and a zero
takes its place. -/
def primary (reader : Reader) (parser : Parser) : Expr × Parser :=
  match parser.current.kind with
  | .number => (.number parser.current, parser.advance)
  | .openParen =>
    let inner := reader.run .lowest parser.advance
    let closing := inner.2.closeParen
    (.paren parser.current inner.1 closing.1, closing.2)
  | kind =>
    (.number (.absentNumber parser.current.position),
      (parser.report (.expectedExpression kind) parser.current.span).advance)

/-- An operand with the signs before it. -/
def signed (reader : Reader) (parser : Parser) : Expr × Parser :=
  if Precedence.isSign parser.current.kind then
    let operand := reader.run .sign parser.advance
    (.unary parser.current operand.1, operand.2)
  else
    primary reader parser

theorem length_rest_closeParen_le (parser : Parser) :
    parser.closeParen.2.rest.length ≤ parser.rest.length := by
  unfold closeParen
  split <;> simp

theorem length_rest_primary_le (reader : Reader) (parser : Parser) :
    (primary reader parser).2.rest.length ≤ parser.rest.length := by
  unfold primary
  split
  · simp
  · exact Nat.le_trans (length_rest_closeParen_le _)
      (Nat.le_trans (reader.length_rest_run_le ..) parser.length_rest_advance_le)
  · simp

theorem length_rest_signed_le (reader : Reader) (parser : Parser) :
    (signed reader parser).2.rest.length ≤ parser.rest.length := by
  unfold signed
  split
  · exact Nat.le_trans (reader.length_rest_run_le ..) parser.length_rest_advance_le
  · exact length_rest_primary_le reader parser

/-! ### Chains of operators -/

theorem current_kind_ne_of_above? {outer precedence : Precedence} {parser : Parser}
    (binds : outer.above? parser.current.kind = some precedence) :
    parser.current.kind ≠ .endOfFile := by
  intro ended
  simp [ended] at binds

/-- What is read so far, extended by the operators that come next and bind more tightly than the
given precedence. -/
def chain (reader : Reader) (outer : Precedence) (left : Expr) (parser : Parser) : Expr × Parser :=
  match _ : outer.above? parser.current.kind with
  | none => (left, parser)
  | some precedence =>
    if parser.operators < maxOperators then
      let right := reader.run precedence parser.advanceOperator
      chain reader outer (.binary left parser.current right.1) right.2
    else
      (left, parser.halt .tooLong)
termination_by parser.rest.length
decreasing_by
  exact Nat.lt_of_le_of_lt (reader.length_rest_run_le ..)
    (length_rest_advance_lt (current_kind_ne_of_above? ‹_›))

theorem length_rest_chain_le (reader : Reader) (outer : Precedence) (left : Expr)
    (parser : Parser) :
    (chain reader outer left parser).2.rest.length ≤ parser.rest.length := by
  fun_induction chain reader outer left parser with
  | case1 => exact Nat.le_refl _
  | case2 left parser precedence binds below right hypothesis =>
    exact Nat.le_trans hypothesis
      (Nat.le_trans (reader.length_rest_run_le ..) parser.length_rest_advance_le)
  | case3 => simp

/-! ### Levels -/

/-- Reads an expression with the given number of levels. Without any, the limit is exceeded. -/
def expression : Nat → Reader
  | 0 =>
    { run := fun _ parser =>
        let halted := parser.halt .tooDeep
        (.number (.absentNumber halted.current.position), halted)
      length_rest_run_le := by simp }
  | levels + 1 =>
    let reader := expression levels
    { run := fun outer parser =>
        let left := signed reader parser
        chain reader outer left.1 left.2
      length_rest_run_le := fun _ parser =>
        Nat.le_trans (length_rest_chain_le ..) (length_rest_signed_le reader parser) }

/-! ### Lines -/

/-- Reports the tokens that are left, if there are any. -/
def reportTrailing (parser : Parser) : Parser :=
  match parser.rest with
  | [] => parser
  | first :: others =>
    parser.report .trailingInput (first.span.through (others.getLastD first).span)

end IntCalc.Parser
