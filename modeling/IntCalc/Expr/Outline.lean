/-
**Outlines: expression trees as indented text.**

Each part of the tree has one line, the form of an expression or the kind of a token with its
value, after a marker that tells the last part of an expression from the others. In front of the
marker stands one group of four characters for each expression around the part: a bar where more
parts of that expression follow, blanks where none do.
-/
import IntCalc.Expr.Basic

namespace IntCalc

/-- The kind of a token, followed by its value if it has one. -/
def Token.label (token : Token) : String :=
  match token.value with
  | some value => token.kind.name ++ " " ++ value.decimal
  | none => token.kind.name

namespace Expr

/-- What stands before the label of a part. -/
def marker (isLast : Bool) : String := if isLast then "└──" else "├──"

/-- What stands in front of everything below a part. -/
def margin (isLast : Bool) : String := if isLast then "    " else "│   "

def tokenLine (indent : String) (isLast : Bool) (token : Token) : String :=
  indent ++ marker isLast ++ token.label

/-- The lines of an expression, each after the given indentation. -/
def outlineFrom (indent : String) (isLast : Bool) : Expr → List String
  | number literal =>
    [indent ++ marker isLast ++ Kind.number.name,
      tokenLine (indent ++ margin isLast) true literal]
  | unary operator operand =>
    (indent ++ marker isLast ++ Kind.unary.name) ::
      tokenLine (indent ++ margin isLast) false operator ::
      operand.outlineFrom (indent ++ margin isLast) true
  | binary left operator right =>
    (indent ++ marker isLast ++ Kind.binary.name) ::
      (left.outlineFrom (indent ++ margin isLast) false ++
        tokenLine (indent ++ margin isLast) false operator ::
        right.outlineFrom (indent ++ margin isLast) true)
  | paren opening inner closing =>
    (indent ++ marker isLast ++ Kind.paren.name) ::
      tokenLine (indent ++ margin isLast) false opening ::
      (inner.outlineFrom (indent ++ margin isLast) false ++
        [tokenLine (indent ++ margin isLast) true closing])

/-- The lines of an expression; it counts as a last part itself. -/
def outline (expr : Expr) : List String := expr.outlineFrom "" true

def pretty (expr : Expr) : String := String.join (expr.outline.map (· ++ "\n"))

end Expr

end IntCalc
