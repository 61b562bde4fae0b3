/-
**Precedence of operators.**

Products bind more tightly than sums, and a sign more tightly than either. An operand that is read
at some precedence ends before the first operator that binds no more tightly than that.
-/
import IntCalc.Token.Basic

namespace IntCalc

/-- How tightly an operator binds its operands. -/
inductive Precedence where
  /-- No operator around: a whole line, or what stands in parentheses. -/
  | lowest
  | sum
  | product
  | sign
  deriving DecidableEq, Repr

namespace Precedence

/-- The place of a precedence in the order from loose to tight. -/
def rank : Precedence → Nat
  | lowest => 0
  | sum => 1
  | product => 2
  | sign => 3

/-- The precedence of a token between two operands, if it can stand there. -/
def ofBinary? : Token.Kind → Option Precedence
  | .plus | .minus => some sum
  | .star | .slash => some product
  | _ => none

/-- Whether a token can stand as a sign before an operand. -/
def isSign : Token.Kind → Bool
  | .plus | .minus => true
  | _ => false

/-- The precedence of a token between two operands, if it binds more tightly than the one given. -/
def above? (outer : Precedence) (kind : Token.Kind) : Option Precedence :=
  (ofBinary? kind).filter fun precedence => outer.rank < precedence.rank

@[simp]
theorem above?_endOfFile (outer : Precedence) : outer.above? .endOfFile = none := rfl

@[simp]
theorem above?_sign (kind : Token.Kind) : sign.above? kind = none := by cases kind <;> rfl

end Precedence

end IntCalc
