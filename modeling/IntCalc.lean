import IntCalc.Main
import IntCalc.Proofs.Grammar
import IntCalc.Proofs.Parser.Reads
import IntCalc.Proofs.Parser.Steps
import IntCalc.Proofs.Parser.Trees
import IntCalc.Proofs.Line
import IntCalc.Proofs.Parser.Completeness
import IntCalc.Proofs.Recognition
import IntCalc.Proofs.Arithmetic
import IntCalc.Proofs.Formula
import IntCalc.Proofs.Tally
import IntCalc.Proofs.FlatLine
import IntCalc.Proofs.Accounting
import IntCalc.Proofs.Subexpressions
import IntCalc.Proofs.Evaluation.Recursion
import IntCalc.Proofs.Evaluation.Exact
import IntCalc.Proofs.WellFormed
import IntCalc.Proofs.Parser.Order
import IntCalc.Proofs.Parser.Recovery
import IntCalc.Proofs.Reports
import IntCalc.Proofs.Boundaries
import IntCalc.Proofs.Parser.Placement
import IntCalc.Proofs.Positions
import IntCalc.Proofs.Diagnostics
import IntCalc.Proofs.Underlining
import IntCalc.Proofs.Correspondence
import IntCalc.Proofs.Parser.Parallel
import IntCalc.Proofs.Content
import IntCalc.Proofs.Shifting
import IntCalc.Proofs.Composition
import IntCalc.Proofs.Partition
import IntCalc.Proofs.RuntimeFaults
import IntCalc.Proofs.Evaluation.Calls
import IntCalc.Proofs.Bounds
import IntCalc.Proofs.Interleaving
import IntCalc.Proofs.Encoding
import IntCalc.Proofs.Shell.Sessions
import IntCalc.Proofs.Shell.Execution
import IntCalc.Proofs.Shell.SingleLines
import IntCalc.Proofs.Excess
import IntCalc.Proofs.Parser.Halting
import IntCalc.Proofs.Limits
import IntCalc.Proofs.Concatenation
import IntCalc.Proofs.Trailing
import IntCalc.Proofs.Blanking
import IntCalc.Proofs.Numerals
import IntCalc.Proofs.Outlining
import IntCalc.Proofs.Parser.Progress
import IntCalc.Proofs.Cursor.Reading
import IntCalc.Proofs.Cursor.Agreement
import IntCalc.Proofs.Cursor.Reachable
import IntCalc.Proofs.Cursor.Contract
