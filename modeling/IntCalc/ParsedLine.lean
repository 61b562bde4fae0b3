/-
**Parsed lines.**

Every line has an expression tree, and a list of what is wrong with the line; the tree means what
the line says if that list is empty.
-/
import IntCalc.Diagnostic.Basic
import IntCalc.Parser.Expression
import IntCalc.Token.Lexer

namespace IntCalc

/-- The tree of a line and what is wrong with the line. -/
structure ParsedLine where
  root : Expr
  lexFaults : List (Located LexFault)
  parseFaults : List (Located ParseFault)

/-- All that is wrong with a line: first with its tokens, then with their order. -/
def ParsedLine.diagnostics (line : ParsedLine) : List Diagnostic :=
  line.lexFaults.map (·.diagnostic LexFault.message) ++
    line.parseFaults.map (·.diagnostic ParseFault.message)

/-- Parses a line. Only its significant tokens reach the parser. -/
def parse (text : String) : ParsedLine :=
  let lexed := tokenize text
  let start := Parser.ofTokens (lexed.1.filter (·.isSignificant)) text.utf8ByteSize
  let read := (Parser.expression maxLevels).run .lowest start
  ⟨read.1, lexed.2, read.2.reportTrailing.faults.toList⟩

end IntCalc
