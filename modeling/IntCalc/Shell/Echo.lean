/-
**What the shell shows of a line besides its answer.**

The dump of its tokens and the outline of its tree can each be switched on. The switches are set by
options or flipped by a command in place of a line.
-/
import IntCalc.Expr.Outline
import IntCalc.Text.Trim

namespace IntCalc.Shell

/-- What is shown before each answer. -/
structure Echo where
  tokens : Bool := false
  tree : Bool := false
  deriving DecidableEq, Repr

/-- A command to flip a switch. -/
inductive Command where
  | tokens
  | tree
  deriving DecidableEq, Repr

/-- The command that a trimmed line gives, if it is one. Capitals of the Latin alphabet
make no difference. -/
def Command.ofText? (text : List Char) : Option Command :=
  let lower := String.ofList (text.map Char.toLower)
  if lower = "#tree" then some .tree
  else if lower = "#tokens" then some .tokens
  else none

namespace Echo

/-- The switches after a command. -/
def flip (echo : Echo) : Command → Echo
  | .tokens => { echo with tokens := !echo.tokens }
  | .tree => { echo with tree := !echo.tree }

def isOn (echo : Echo) : Command → Bool
  | .tokens => echo.tokens
  | .tree => echo.tree

end Echo

/-- The line of a token in a dump: its kind, its text in quotes, and its value if it has one. -/
def tokenEntry (token : Token) : String :=
  token.kind.name ++ ": '" ++ token.text ++ "'" ++
    (match token.value with
      | some value => " " ++ value.decimal
      | none => "")

/-- A dump of tokens, each entry ended by a line feed. -/
def tokenDump (tokens : List Token) : String :=
  String.join (tokens.map fun token => tokenEntry token ++ "\n")

end IntCalc.Shell
