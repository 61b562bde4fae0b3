/-
**Lines as readings.**

A line is parsed by one reading, of an expression at the lowest precedence with all levels, over its
significant tokens (`reads_line`). The reading starts at `lineStart` and ends at `lineEnd`, with what
it leaves over; the line is faultless if its tokens are, nothing is recorded and nothing is left over
(`diagnostics_parse_eq_nil_iff`).
-/
import IntCalc.ParsedLine
import IntCalc.Proofs.Parser.Steps
import IntCalc.Proofs.Scan

namespace IntCalc

/-- The parser before it reads a line. -/
def lineStart (text : String) : Parser := .ofTokens (significant text) text.utf8ByteSize

/-- The parser when it has read the expression of a line. -/
def lineEnd (text : String) : Parser :=
  ((Parser.expression maxLevels).run .lowest (lineStart text)).2

theorem reads_line (text : String) :
    Parser.Reads maxLevels (.expression .lowest) (lineStart text) (parse text).root
      (lineEnd text) :=
  Parser.reads_expression ..

theorem moves_line (text : String) :
    Parser.Moves (lineStart text) (parse text).root.leaves (lineEnd text) := by
  obtain ⟨added, leaves, moves⟩ := (reads_line text).moves rfl
  rw [leaves]
  exact moves

theorem haltedAtEnd_lineEnd (text : String) : (lineEnd text).HaltedAtEnd :=
  (reads_line text).haltedAtEnd rfl

theorem lexFaults_parse (text : String) : (parse text).lexFaults = (tokenize text).2 := rfl

theorem parseFaults_parse (text : String) :
    (parse text).parseFaults = (lineEnd text).reportTrailing.faults.toList := rfl

/-- What a reading leaves over is reported behind its own faults. -/
theorem faults_reportTrailing {parser : Parser} (coherent : parser.HaltedAtEnd) :
    parser.reportTrailing.faults.toList = parser.faults.toList ++
      match parser.rest with
      | [] => []
      | first :: others =>
        [⟨.trailingInput, first.span.through (others.getLastD first).span⟩] := by
  unfold Parser.reportTrailing
  cases left : parser.rest with
  | nil => simp
  | cons first others =>
    have running : parser.halted = false := by
      cases halted : parser.halted with
      | false => rfl
      | true => simp [coherent halted] at left
    rw [Parser.faults_report running, Array.toList_push]

/-- **A line is faultless if its tokens are, nothing is recorded and nothing is left over.** -/
theorem diagnostics_parse_eq_nil_iff (text : String) :
    (parse text).diagnostics = [] ↔
      (tokenize text).2 = [] ∧ (lineEnd text).faults.toList = [] ∧ (lineEnd text).rest = [] := by
  have trailing := faults_reportTrailing (haltedAtEnd_lineEnd text)
  rw [ParsedLine.diagnostics, List.append_eq_nil_iff, List.map_eq_nil_iff, List.map_eq_nil_iff,
    parseFaults_parse, trailing, List.append_eq_nil_iff]
  refine and_congr Iff.rfl (and_congr Iff.rfl ?_)
  cases (lineEnd text).rest <;> simp

end IntCalc
