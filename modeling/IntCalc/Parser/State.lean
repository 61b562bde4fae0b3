/-
**The state of a parser.**

A parser holds the tokens that it has not yet taken. Past the last of them it sees the end of the
line again and again (`Parser.current`), so taking a token always makes sense and never runs out.
A limit that is exceeded halts the parser: it records that fault, drops all tokens left and records
nothing more (`Parser.report_of_halted`).
-/
import IntCalc.Fault

namespace IntCalc

/-- A parser part of the way through the tokens of a line. -/
structure Parser where
  /-- The tokens not yet taken, without that for the end of the line. -/
  rest : List Token
  stop : Nat
  operators : Nat
  faults : Array (Located ParseFault)
  halted : Bool

namespace Parser

def ofTokens (tokens : List Token) (stop : Nat) : Parser := ⟨tokens, stop, 0, #[], false⟩

/-- The token that comes next. -/
def current (parser : Parser) : Token := parser.rest.headD (.endOfFile parser.stop)

def advance (parser : Parser) : Parser := { parser with rest := parser.rest.tail }

def advanceOperator (parser : Parser) : Parser :=
  { parser.advance with operators := parser.operators + 1 }

/-- Records a fault, unless the parser has halted. -/
def report (parser : Parser) (fault : ParseFault) (span : Span) : Parser :=
  if parser.halted then parser else { parser with faults := parser.faults.push ⟨fault, span⟩ }

/-- Records that a limit is exceeded at the token that comes next, and gives up the rest. -/
def halt (parser : Parser) (limit : ParseFault) : Parser :=
  { parser.report limit parser.current.span with rest := [], halted := true }

/-! ### What the moves leave -/

theorem report_of_halted {parser : Parser} (halted : parser.halted = true) (fault : ParseFault)
    (span : Span) : parser.report fault span = parser := by
  simp [report, halted]

@[simp]
theorem rest_report (parser : Parser) (fault : ParseFault) (span : Span) :
    (parser.report fault span).rest = parser.rest := by
  unfold report
  split <;> rfl

@[simp]
theorem stop_report (parser : Parser) (fault : ParseFault) (span : Span) :
    (parser.report fault span).stop = parser.stop := by
  unfold report
  split <;> rfl

@[simp]
theorem operators_report (parser : Parser) (fault : ParseFault) (span : Span) :
    (parser.report fault span).operators = parser.operators := by
  unfold report
  split <;> rfl

@[simp]
theorem halted_report (parser : Parser) (fault : ParseFault) (span : Span) :
    (parser.report fault span).halted = parser.halted := by
  unfold report
  split <;> rfl

theorem faults_report {parser : Parser} (running : parser.halted = false) (fault : ParseFault)
    (span : Span) : (parser.report fault span).faults = parser.faults.push ⟨fault, span⟩ := by
  simp [report, running]

@[simp]
theorem rest_halt (parser : Parser) (limit : ParseFault) : (parser.halt limit).rest = [] := rfl

@[simp]
theorem stop_halt (parser : Parser) (limit : ParseFault) :
    (parser.halt limit).stop = parser.stop := by
  simp [halt]

@[simp]
theorem operators_halt (parser : Parser) (limit : ParseFault) :
    (parser.halt limit).operators = parser.operators := by
  simp [halt]

@[simp]
theorem halted_halt (parser : Parser) (limit : ParseFault) : (parser.halt limit).halted = true :=
  rfl

theorem faults_halt {parser : Parser} (running : parser.halted = false) (limit : ParseFault) :
    (parser.halt limit).faults = parser.faults.push ⟨limit, parser.current.span⟩ := by
  simp [halt, faults_report running]

@[simp]
theorem rest_advance (parser : Parser) : parser.advance.rest = parser.rest.tail := rfl

@[simp]
theorem rest_advanceOperator (parser : Parser) :
    parser.advanceOperator.rest = parser.rest.tail := rfl

@[simp]
theorem operators_advance (parser : Parser) : parser.advance.operators = parser.operators := rfl

@[simp]
theorem operators_advanceOperator (parser : Parser) :
    parser.advanceOperator.operators = parser.operators + 1 := rfl

@[simp]
theorem halted_advance (parser : Parser) : parser.advance.halted = parser.halted := rfl

@[simp]
theorem halted_advanceOperator (parser : Parser) :
    parser.advanceOperator.halted = parser.halted := rfl

@[simp]
theorem faults_advance (parser : Parser) : parser.advance.faults = parser.faults := rfl

@[simp]
theorem faults_advanceOperator (parser : Parser) :
    parser.advanceOperator.faults = parser.faults := rfl

/-! ### The token that comes next -/

theorem current_of_rest {parser : Parser} {token : Token} {rest : List Token}
    (next : parser.rest = token :: rest) : parser.current = token := by
  simp [current, next]

theorem current_of_rest_nil {parser : Parser} (spent : parser.rest = []) :
    parser.current = .endOfFile parser.stop := by
  simp [current, spent]

theorem current_mem {parser : Parser} (more : parser.rest ≠ []) : parser.current ∈ parser.rest := by
  obtain ⟨first, others, rest⟩ := List.exists_cons_of_ne_nil more
  rw [current_of_rest rest, rest]
  exact List.mem_cons_self

theorem rest_eq_cons {parser : Parser} (more : parser.current.kind ≠ .endOfFile) :
    parser.rest = parser.current :: parser.rest.tail := by
  cases equal : parser.rest with
  | nil => simp [current, equal, Token.endOfFile, Token.missing] at more
  | cons token rest => simp [current, equal]

@[simp]
theorem current_report (parser : Parser) (fault : ParseFault) (span : Span) :
    (parser.report fault span).current = parser.current := by
  simp [current]

theorem position_current_halt (parser : Parser) (limit : ParseFault) :
    (parser.halt limit).current.position = parser.stop := by
  simp [current, Token.endOfFile, Token.missing]

theorem length_rest_advance_le (parser : Parser) :
    parser.advance.rest.length ≤ parser.rest.length := by
  simp

theorem length_rest_advance_lt {parser : Parser} (more : parser.current.kind ≠ .endOfFile) :
    parser.advance.rest.length < parser.rest.length := by
  rw [rest_advance, rest_eq_cons more, List.tail_cons, List.length_cons]
  exact Nat.lt_succ_self _

end Parser

end IntCalc
