/-
**Faults: what can be wrong with a line, by cause.**

There is one type for each stage, since no stage can meet another's faults: a lexer meets bad
characters and numerals (`LexFault`), a parser meets missing and superfluous tokens and the two
limits on expressions (`ParseFault`), an evaluation meets operations without a result
(`EvalFault`). The wording of each is in its `message`.
-/
import IntCalc.Token.Basic

namespace IntCalc

/-! ### Limits -/

/-- The number of levels to which expressions may nest, the outermost one included. -/
def maxLevels : Nat := 256

/-- The number of binary operators that a line may have. -/
def maxOperators : Nat := 1024

/-! ### Causes -/

/-- What a lexer may find wrong with a token. -/
inductive LexFault where
  /-- A character has no place in an expression; its position is named with it. -/
  | unexpectedCharacter (char : Char) (position : Nat)
  /-- A numeral stands for a number beyond the greatest value. -/
  | numberOutOfRange (digits : String)
  deriving DecidableEq, Repr

/-- What a parser may find wrong with the order of tokens. -/
inductive ParseFault where
  /-- An operand should come and another token does. -/
  | expectedExpression (found : Token.Kind)
  /-- An open parenthesis should be closed and another token comes. -/
  | expectedCloseParen (found : Token.Kind)
  | trailingInput
  | tooDeep
  | tooLong
  deriving DecidableEq, Repr

/-- Why an operator has no result. -/
inductive EvalFault where
  | divisionByZero
  | overflow
  /-- The operator's token is not one that can stand there. -/
  | badOperator (kind : Token.Kind)
  deriving DecidableEq, Repr

/-! ### Wording -/

def LexFault.message : LexFault → String
  | unexpectedCharacter char position =>
    "unexpected character '" ++ char.toString ++ "' at position " ++ position.repr
  | numberOutOfRange digits =>
    "invalid number '" ++ digits ++ "', valid range is [0, " ++ Value.greatest.decimal ++ "]"

def ParseFault.message : ParseFault → String
  | expectedExpression found => "expected expression, got " ++ found.name
  | expectedCloseParen found => "expected ')', got " ++ found.name
  | trailingInput => "unexpected trailing input"
  | tooDeep => "expression nests deeper than " ++ maxLevels.repr ++ " levels"
  | tooLong => "expression has more than " ++ maxOperators.repr ++ " operators"

def EvalFault.message : EvalFault → String
  | divisionByZero => "division by zero"
  | overflow => "integer overflow"
  | badOperator kind => kind.name ++ " is not a valid operator here"

end IntCalc
