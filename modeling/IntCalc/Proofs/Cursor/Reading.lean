/-
**Reading with an index.**

A parser may keep all tokens of a line in one buffer and go through it with an index (`Cursor`). It
counts its levels up as it goes deeper, sets the depth back at the end of every expression, and
looks tokens up by their index, with lengths subtracted on the way. Nothing in this form says that
an index stays inside the buffer, or that the readings come to an end.

So both are left open. Every access to the buffer is checked, a length is only made less where there
is enough of it (`Nat.psub`), and the readings are the least functions that satisfy their equations,
which need not be defined everywhere. `none` stands for an access outside the buffer and for a
reading without end; a reading with an answer has neither.

The readings are opened by one rule for each thing that they can do, with the condition under which
they do it.
-/
import IntCalc.ParsedLine
import Mathlib.Data.Nat.PSub

namespace IntCalc

/-- A parser part of the way through a buffer of tokens. -/
structure Cursor where
  /-- All tokens of the line that matter, with the one for its end. -/
  tokens : List Token
  /-- The index of the token that comes next. -/
  position : Nat
  /-- The number of expressions that are being read. -/
  depth : Nat
  operators : Nat
  diagnostics : List Diagnostic
  halted : Bool
  deriving DecidableEq

namespace Cursor

/-! ### Moves -/

/-- The parser of a line before it reads anything. -/
def ofString (text : String) : Cursor :=
  let lexed := tokenize text
  { tokens := lexed.1.filter fun token => token.kind ≠ .whitespace ∧ token.kind ≠ .invalid
    position := 0
    depth := 0
    operators := 0
    diagnostics := lexed.2.map (·.diagnostic LexFault.message)
    halted := false }

/-- The token so many places ahead, or the last one of the buffer if there are not so many. -/
def peek? (cursor : Cursor) (ahead : Nat) : Option Token := do
  let last ← cursor.tokens.length.psub 1
  cursor.tokens[min (cursor.position + ahead) last]?

def current? (cursor : Cursor) : Option Token := cursor.peek? 0

/-- Takes the token that comes next, unless it is the one for the end of the line. -/
def next? (cursor : Cursor) : Option (Token × Cursor) := do
  let token ← cursor.current?
  if token.kind = .endOfFile then
    return (token, cursor)
  else
    return (token, { cursor with position := cursor.position + 1 })

/-- Records a fault, unless the parser has halted. -/
def report (cursor : Cursor) (fault : ParseFault) (span : Span) : Cursor :=
  if cursor.halted then
    cursor
  else
    { cursor with diagnostics := cursor.diagnostics ++ [⟨fault.message, span⟩] }

/-- Records that a limit is exceeded and goes to the end of the buffer. -/
def halt? (cursor : Cursor) (limit : ParseFault) : Option Cursor := do
  let token ← cursor.current?
  let last ← cursor.tokens.length.psub 1
  return { cursor.report limit token.span with position := last, halted := true }

/-- Goes one level deeper, if there is another level. -/
def enter? (cursor : Cursor) : Option (Bool × Cursor) := do
  if cursor.halted then
    return (false, cursor)
  else if maxLevels ≤ cursor.depth then
    let stopped ← cursor.halt? .tooDeep
    return (false, stopped)
  else
    return (true, { cursor with depth := cursor.depth + 1 })

/-- Counts one operator more, if there may be another one. -/
def link? (cursor : Cursor) : Option (Bool × Cursor) := do
  if cursor.halted then
    return (false, cursor)
  else if maxOperators ≤ cursor.operators then
    let stopped ← cursor.halt? .tooLong
    return (false, stopped)
  else
    return (true, { cursor with operators := cursor.operators + 1 })

/-! ### Readings -/

/-- The closing parenthesis that should come next, put in where it does not come. -/
def closeParen? (cursor : Cursor) : Option (Token × Cursor) := do
  let token ← cursor.current?
  if token.kind = .closeParen then
    cursor.next?
  else
    return (.missing .closeParen token.position,
      cursor.report (.expectedCloseParen token.kind) token.span)

mutual

/-- Reads an expression that stands at an operator of the given rank. The level that it takes is
given back at the end. -/
def expression (parent : Nat) (cursor : Cursor) : Option (Expr × Cursor) := do
  let (entered, inside) ← cursor.enter?
  if entered then
    let (left, middle) ← inside |>.operand parent
    let (whole, after) ← middle |>.chain parent left
    return (whole, { after with depth := cursor.depth })
  else
    let token ← inside.current?
    return (.number (.absentNumber token.position), inside)
partial_fixpoint

/-- Reads an operand with the signs before it, which bind no less than the given rank. -/
def operand (parent : Nat) (cursor : Cursor) : Option (Expr × Cursor) := do
  let token ← cursor.current?
  if Precedence.isSign token.kind ∧ parent ≤ Precedence.sign.rank then
    let (operator, middle) ← cursor.next?
    let (operand, after) ← middle |>.expression Precedence.sign.rank
    return (.unary operator operand, after)
  else
    cursor |>.primary
partial_fixpoint

/-- Reads a number or an expression in parentheses; a zero takes the place of anything else. -/
def primary (cursor : Cursor) : Option (Expr × Cursor) := do
  let token ← cursor.current?
  match token.kind with
  | .number =>
    let (literal, after) ← cursor.next?
    return (.number literal, after)
  | .openParen =>
    let (opening, inside) ← cursor.next?
    let (inner, middle) ← inside |>.expression Precedence.lowest.rank
    let (closing, after) ← middle.closeParen?
    return (.paren opening inner closing, after)
  | kind =>
    let (_, after) ← (cursor.report (.expectedExpression kind) token.span).next?
    return (.number (.absentNumber token.position), after)
partial_fixpoint

/-- Extends what is read so far by the operators that come next and bind more tightly. -/
def chain (parent : Nat) (left : Expr) (cursor : Cursor) : Option (Expr × Cursor) := do
  let token ← cursor.current?
  match Precedence.ofBinary? token.kind with
  | none => return (left, cursor)
  | some precedence =>
    if precedence.rank ≤ parent then
      return (left, cursor)
    else
      let (counted, linked) ← cursor.link?
      if counted then
        let (operator, middle) ← linked.next?
        let (right, after) ← middle |>.expression precedence.rank
        after |>.chain parent (.binary left operator right)
      else
        return (left, linked)
partial_fixpoint

end

/-! ### What a reading does -/

section Rules

variable {cursor inside middle after finish : Cursor} {parent : Nat} {token operator : Token}
  {left right operand inner whole : Expr}

theorem expression_of_entered (entered : cursor.enter? = some (true, inside))
    (reads : inside.operand parent = some (left, middle))
    (goesOn : middle.chain parent left = some (whole, after)) :
    cursor.expression parent = some (whole, { after with depth := cursor.depth }) := by
  rw [expression]
  simp only [entered, reads, goesOn, Option.bind_eq_bind, Option.bind_some, if_true]
  rfl

theorem expression_of_refused (refused : cursor.enter? = some (false, inside))
    (next : inside.current? = some token) :
    cursor.expression parent = some (.number (.absentNumber token.position), inside) := by
  rw [expression]
  simp only [refused, next, Option.bind_eq_bind, Option.bind_some, Bool.false_eq_true, if_false]
  rfl

theorem operand_of_sign (next : cursor.current? = some token)
    (isSign : Precedence.isSign token.kind = true) (binds : parent ≤ Precedence.sign.rank)
    (takes : cursor.next? = some (operator, middle))
    (reads : middle.expression Precedence.sign.rank = some (operand, after)) :
    cursor.operand parent = some (.unary operator operand, after) := by
  rw [Cursor.operand]
  simp only [next, if_pos (And.intro isSign binds), takes, reads, Option.bind_eq_bind,
    Option.bind_some]
  rfl

theorem operand_eq_primary (next : cursor.current? = some token)
    (other : ¬ (Precedence.isSign token.kind = true ∧ parent ≤ Precedence.sign.rank)) :
    cursor.operand parent = cursor.primary := by
  rw [Cursor.operand, next, Option.bind_eq_bind, Option.bind_some, if_neg other]

theorem primary_of_number (next : cursor.current? = some token) (isNumber : token.kind = .number)
    (takes : cursor.next? = some (token, after)) :
    cursor.primary = some (.number token, after) := by
  rw [primary]
  simp only [next, isNumber, takes, Option.bind_eq_bind, Option.bind_some]
  rfl

theorem primary_of_openParen {opening closing : Token} (next : cursor.current? = some token)
    (opens : token.kind = .openParen) (takes : cursor.next? = some (opening, inside))
    (reads : inside.expression Precedence.lowest.rank = some (inner, middle))
    (closes : middle.closeParen? = some (closing, after)) :
    cursor.primary = some (.paren opening inner closing, after) := by
  rw [primary]
  simp only [next, opens, takes, reads, closes, Option.bind_eq_bind, Option.bind_some]
  rfl

theorem primary_of_other {dropped : Token} (next : cursor.current? = some token)
    (notNumber : token.kind ≠ .number) (notOpen : token.kind ≠ .openParen)
    (drops : (cursor.report (.expectedExpression token.kind) token.span).next? =
      some (dropped, after)) :
    cursor.primary = some (.number (.absentNumber token.position), after) := by
  rw [primary, next, Option.bind_eq_bind, Option.bind_some]
  split
  · contradiction
  · contradiction
  · rw [drops]
    rfl

theorem chain_of_stop (next : cursor.current? = some token)
    (ends : ∀ precedence, Precedence.ofBinary? token.kind = some precedence →
      precedence.rank ≤ parent) : cursor.chain parent left = some (left, cursor) := by
  rw [chain, next, Option.bind_eq_bind, Option.bind_some]
  split
  · rfl
  · rename_i precedence joins
    rw [if_pos (ends precedence joins)]
    rfl

variable {precedence : Precedence} (joins : Precedence.ofBinary? token.kind = some precedence)
  (binds : parent < precedence.rank)

include joins binds

theorem chain_of_linked (next : cursor.current? = some token)
    (counted : cursor.link? = some (true, inside)) (takes : inside.next? = some (operator, middle))
    (reads : middle.expression precedence.rank = some (right, after))
    (goesOn : after.chain parent (.binary left operator right) = some (whole, finish)) :
    cursor.chain parent left = some (whole, finish) := by
  rw [chain, next, Option.bind_eq_bind, Option.bind_some, joins]
  simp only [if_neg (Nat.not_le.mpr binds), counted, takes, reads, goesOn, Option.bind_eq_bind,
    Option.bind_some, if_true]

theorem chain_of_refused (next : cursor.current? = some token)
    (refused : cursor.link? = some (false, after)) :
    cursor.chain parent left = some (left, after) := by
  rw [chain, next, Option.bind_eq_bind, Option.bind_some, joins]
  simp only [if_neg (Nat.not_le.mpr binds), refused, Option.bind_eq_bind, Option.bind_some,
    Bool.false_eq_true, if_false]
  rfl

end Rules

/-! ### Lines -/

/-- Parses a line: its tree, and all that is wrong with it. -/
def parse? (text : String) : Option (Expr × List Diagnostic) := do
  let (root, after) ← (ofString text).expression Precedence.lowest.rank
  let token ← after.current?
  if token.kind = .endOfFile then
    return (root, after.diagnostics)
  else
    let final ← after.tokens.length.psub 2
    let last ← after.tokens[final]?
    return (root, (after.report .trailingInput (token.span.through last.span)).diagnostics)

end Cursor

end IntCalc
