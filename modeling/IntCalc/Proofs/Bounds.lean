/-
**The tree of every line is bounded.**

However long a line is and whatever is wrong with it, its tree has at most 1024 binary operators and
nests at most 256 deep, and it nests as deep as that only if this was reported. So every way down
from the root is short (`Expr.Path`), and the evaluation of the tree nests few calls of itself
(`bounded_parse`).

Both bounds are kept by every reading: operators are counted once each and never more than the limit
(`Reads.operators_eq`, `Reads.operators_le`), and a tree nests no deeper than there are levels
(`Reads.nesting_le`). The rest follows by recursion on the tree.
-/
import IntCalc.Proofs.Accounting
import IntCalc.Proofs.Evaluation.Calls
import IntCalc.Proofs.Parser.Trees

namespace IntCalc

namespace Expr

/-! ### Ways down a tree -/

/-- A step from an expression to one of its operands. -/
inductive Edge where
  | sign
  | left
  | right
  | inner
  deriving DecidableEq, Repr

/-- Whether a step goes down a level of nesting. -/
def Edge.nests : Edge → Bool
  | left => false
  | sign | right | inner => true

/-- Steps lead from an expression to one inside it. -/
inductive Path : Expr → List Edge → Expr → Prop
  | here (expr : Expr) : Path expr [] expr
  | sign {operator : Token} {operand target : Expr} {edges : List Edge}
      (path : Path operand edges target) : Path (.unary operator operand) (.sign :: edges) target
  | left {operator : Token} {left right target : Expr} {edges : List Edge}
      (path : Path left edges target) : Path (.binary left operator right) (.left :: edges) target
  | right {operator : Token} {left right target : Expr} {edges : List Edge}
      (path : Path right edges target) : Path (.binary left operator right) (.right :: edges) target
  | inner {opening closing : Token} {inner target : Expr} {edges : List Edge}
      (path : Path inner edges target) : Path (.paren opening inner closing) (.inner :: edges) target

namespace Path

variable {expr target : Expr} {edges : List Edge}

/-- A way down crosses no more levels than the expression nests. -/
theorem countP_nests_le (path : Path expr edges target) :
    edges.countP Edge.nests + target.nesting ≤ expr.nesting := by
  induction path with
  | here expr => simp
  | sign _ ih | left _ ih | right _ ih | inner _ ih =>
    simp only [List.countP_cons, Edge.nests, nesting, Bool.false_eq_true, if_true, if_false]
    omega

/-- Every left operand on a way down is one of another operator. -/
theorem count_left_le (path : Path expr edges target) :
    edges.count .left + target.operatorCount ≤ expr.operatorCount := by
  induction path with
  | here expr => simp
  | sign _ ih | left _ ih | right _ ih | inner _ ih =>
    simp only [List.count_cons, operatorCount, beq_iff_eq, reduceCtorEq, if_true, if_false]
    omega

end Path

end Expr

/-! ### Lines -/

/-- **The tree of a line is bounded**, with the ways down it and the calls of its evaluation. -/
structure ParsedLine.Bounded (line : ParsedLine) : Prop where
  operators : line.root.operatorCount ≤ 1024
  nesting : line.root.nesting ≤ 256
  deepest : line.root.nesting = 256 → ∃ fault ∈ line.parseFaults, fault.value = .tooDeep
  paths : ∀ edges target, line.root.Path edges target →
    edges.countP Expr.Edge.nests ≤ 256 ∧ edges.count .left ≤ 1024
  calls : line.root.calls ≤ 2 * line.root.nesting + 2
  few : line.root.calls ≤ 514
  /-- The evaluation has its outcome if it may nest so many calls. -/
  evaluated : line.root.evaluateWithin (2 * line.root.nesting + 2) =
    line.root.evaluate.mapError some

theorem operatorCount_root_le (text : String) : (parse text).root.operatorCount ≤ 1024 := by
  have counted := (reads_line text).operators_eq
  have within := (reads_line text).operators_le (Nat.zero_le _)
  simp only [Parser.Goal.operatorCount, lineStart, Parser.ofTokens, maxOperators] at counted within
  omega

/-- What the reading of a line records is recorded of the line. -/
theorem exists_mem_parseFaults_of_recorded {text : String} {cause : ParseFault}
    (recorded : (lineEnd text).Recorded cause) :
    ∃ fault ∈ (parse text).parseFaults, fault.value = cause := by
  obtain ⟨fault, member, value⟩ := recorded
  refine ⟨fault, ?_, value⟩
  rw [parseFaults_parse, faults_reportTrailing (haltedAtEnd_lineEnd text)]
  exact List.mem_append_left _ member

/-- **The tree of every line is bounded**, however long it is and whatever is wrong with it. -/
theorem bounded_parse (text : String) : (parse text).Bounded := by
  have operators := operatorCount_root_le text
  have nesting : (parse text).root.nesting ≤ 256 := (reads_line text).nesting_le (Nat.zero_le _)
  have calls := (parse text).root.calls_le_nesting.1
  refine ⟨operators, nesting, fun deepest => ?_, fun edges target path => ?_, calls, by omega,
    Expr.evaluateWithin_eq calls⟩
  · rcases (reads_line text).nesting_lt rfl trivial with shallow | deep
    · exact absurd deepest (Nat.ne_of_lt shallow)
    · exact exists_mem_parseFaults_of_recorded deep
  · have levels := path.countP_nests_le
    have links := path.count_left_le
    omega

end IntCalc
