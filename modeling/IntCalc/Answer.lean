/-
**Answers: the value of a line, or why it has none.**

A line with diagnostics is not evaluated: its failure is all of them. Otherwise the line fails
where its evaluation does.
-/
import IntCalc.Diagnostic.Report
import IntCalc.Expr.Eval
import IntCalc.ParsedLine

namespace IntCalc

/-- Why a line has no value. -/
inductive Failure where
  | malformed (diagnostics : List Diagnostic)
  | runtime (fault : Located EvalFault)
  deriving DecidableEq

/-- The message of a failure; of diagnostics it tells the number. -/
def Failure.message : Failure → String
  | malformed [_] => "1 syntax error"
  | malformed diagnostics => diagnostics.length.repr ++ " syntax errors"
  | runtime fault => fault.value.message

def Failure.diagnostics : Failure → List Diagnostic
  | malformed diagnostics => diagnostics
  | runtime fault => [fault.diagnostic EvalFault.message]

/-- What the messages of a failure are announced as. -/
def Failure.kind : Failure → String
  | malformed _ => "syntax error"
  | runtime _ => "runtime error"

def Failure.report (failure : Failure) (line : String) : Report :=
  { line, diagnostics := failure.diagnostics, kind := failure.kind }

/-- The value of a line, or why it has none. -/
abbrev Answer := Except Failure Value

def ParsedLine.answer (line : ParsedLine) : Answer :=
  match line.diagnostics with
  | [] => line.root.evaluate.mapError .runtime
  | diagnostics => .error (.malformed diagnostics)

def answer (text : String) : Answer := (parse text).answer

end IntCalc
