/-
**Expression trees.**

A tree keeps the tokens from which it was read, so its leaves, in order, are the tokens of the
expression (`Expr.leaves`). The parts of an expression are its operands and its own tokens, in the
order of the line; an expression spans from its first part through its last
(`Expr.span_eq_through`). `Expr.walk` visits an expression before its parts, and says how deep
each visited part lies.
-/
import IntCalc.Token.Basic

namespace IntCalc

/-- An arithmetic expression, with its tokens. -/
inductive Expr where
  | number (literal : Token)
  | unary (operator : Token) (operand : Expr)
  | binary (left : Expr) (operator : Token) (right : Expr)
  | paren (opening : Token) (inner : Expr) (closing : Token)
  deriving DecidableEq

/-! ### Kinds -/

/-- Which of the four forms an expression has. -/
inductive Expr.Kind where
  | number
  | unary
  | binary
  | paren
  deriving DecidableEq, Repr

namespace Expr

/-- The name of a form, as tree dumps show it. -/
def Kind.name : Kind → String
  | number => "NumberExpression"
  | unary => "UnaryExpression"
  | binary => "BinaryExpression"
  | paren => "ParenthesizedExpression"

def kind : Expr → Kind
  | number _ => .number
  | unary _ _ => .unary
  | binary _ _ _ => .binary
  | paren _ _ _ => .paren

/-! ### Parts -/

/-- A part of a tree: an expression or a token. -/
inductive Part where
  | node (expr : Expr)
  | leaf (token : Token)
  deriving DecidableEq

/-- The parts of an expression, in the order of the line. -/
def parts : Expr → List Part
  | number literal => [.leaf literal]
  | unary operator operand => [.leaf operator, .node operand]
  | binary left operator right => [.node left, .leaf operator, .node right]
  | paren opening inner closing => [.leaf opening, .node inner, .leaf closing]

/-- The tokens of an expression, in the order of the line. -/
def leaves : Expr → List Token
  | number literal => [literal]
  | unary operator operand => operator :: operand.leaves
  | binary left operator right => left.leaves ++ operator :: right.leaves
  | paren opening inner closing => opening :: (inner.leaves ++ [closing])

/-- The span from the first part of an expression through its last. -/
def span : Expr → Span
  | number literal => literal.span
  | unary operator operand => operator.span.through operand.span
  | binary left _ right => left.span.through right.span
  | paren opening _ closing => opening.span.through closing.span

def Part.span : Part → Span
  | node expr => expr.span
  | leaf token => token.span

theorem parts_ne_nil (expr : Expr) : expr.parts ≠ [] := by cases expr <;> simp [parts]

theorem span_eq_through (expr : Expr) :
    expr.span =
      (expr.parts.head expr.parts_ne_nil).span.through
        (expr.parts.getLast expr.parts_ne_nil).span := by
  cases expr with
  | number literal =>
    ext
    · rfl
    · simp [span, parts, Part.span, Span.through, Span.stop]
  | unary operator operand => rfl
  | binary left operator right => rfl
  | paren opening inner closing => rfl

/-! ### Visits -/

/-- An expression and all parts below it, each before its own parts, with their depths; the
expression itself is at the given depth. -/
def walk (depth : Nat) : Expr → List (Nat × Part)
  | number literal => [(depth, .node (number literal)), (depth + 1, .leaf literal)]
  | unary operator operand =>
    (depth, .node (unary operator operand)) :: (depth + 1, .leaf operator) ::
      operand.walk (depth + 1)
  | binary left operator right =>
    (depth, .node (binary left operator right)) ::
      (left.walk (depth + 1) ++ (depth + 1, .leaf operator) :: right.walk (depth + 1))
  | paren opening inner closing =>
    (depth, .node (paren opening inner closing)) :: (depth + 1, .leaf opening) ::
      (inner.walk (depth + 1) ++ [(depth + 1, .leaf closing)])

end Expr

end IntCalc
