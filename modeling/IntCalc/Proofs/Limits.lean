/-
**Lines that exceed a limit.**

If the tokens of a line are faultless and are the leaves of a tree of the grammar, only a limit can
stand against the line. A line whose tree exceeds one has exactly one diagnostic, at the first token
past a limit, for the limit that this token is past (`diagnostics_of_exceeding`). Parentheses that are
open there, operands that are missing and tokens that are left over are not reported.

The levels include that of the root. So a tree with few operators is accepted if it nests less than
256 levels below its root, and one that nests exactly 256 levels below it is refused, for nesting
deeper than 256 levels (`accepted_iff_nesting_lt`).
-/
import IntCalc.Proofs.Formula
import IntCalc.Proofs.Parser.Halting

namespace IntCalc

/-! ### Formulas beyond the limits -/

namespace Formula

/-- Sums of sums down to ones, with both operands alike. -/
def balancedSum : Nat → Formula
  | 0 => .number 1 (by decide)
  | depth + 1 => .binary (balancedSum depth) .add (balancedSum depth)

/-- A one with so many signs in front, such as `---1`. -/
def manySigns : Nat → Formula
  | 0 => .number 1 (by decide)
  | signs + 1 => .neg (manySigns signs)

/-- A sum with too many operators on its left and too many signs on its right. -/
def longThenDeep : Formula := .binary (balancedSum 11) .add (manySigns 300)

theorem operatorCount_manySigns (signs : Nat) : (manySigns signs).operatorCount = 0 := by
  induction signs with
  | zero => rfl
  | succ signs ih => exact ih

theorem nesting_manySigns (signs : Nat) : (manySigns signs).nesting = signs := by
  induction signs with
  | zero => rfl
  | succ signs ih => rw [manySigns, nesting, ih, Nat.add_comm]

theorem measures_tree_manySigns (signs : Nat) :
    ((manySigns signs).tree 0).operatorCount = 0 ∧ ((manySigns signs).tree 0).nesting = signs := by
  rw [operatorCount_tree, operatorCount_manySigns, nesting_tree, nesting_manySigns]
  exact ⟨rfl, rfl⟩

end Formula

/-! ### One diagnostic -/

variable {text : String} {tree : Expr}

/-- A line has one fault if reading its tree breaks off, at the token where that is. -/
theorem faults_of_breaksOff {cause : ParseFault} {place : Nat} (clean : (tokenize text).2 = [])
    (derived : tree.Derives .expr) (leaves : tree.leaves = significant text)
    (breaks : tree.BreaksOff maxLevels maxOperators cause place) :
    ∃ token, (significant text)[place]? = some token ∧
      (parse text).parseFaults = [⟨cause, token.span⟩] ∧
      (parse text).diagnostics = [⟨cause.message, token.span⟩] := by
  have next : (lineStart text).rest = tree.leaves ++ [] := by rw [leaves, List.append_nil]; rfl
  have halts : Parser.Halts maxLevels (.expression .lowest) (lineStart text) cause place :=
    Parser.haltsAtFront_of_derives derived (Nat.le_refl _) next rfl (Nat.zero_add _) breaks
  obtain ⟨token, expr, after, found, reads, halted⟩ := halts
  have ended : lineEnd text = after := congrArg Prod.snd reads.run_eq
  have faults : (parse text).parseFaults = [⟨cause, token.span⟩] := by
    rw [parseFaults_parse, faults_reportTrailing (haltedAtEnd_lineEnd text), ended, halted.spent,
      halted.faults]
    rfl
  refine ⟨token, found, faults, ?_⟩
  rw [ParsedLine.diagnostics, faults]
  show (tokenize text).2.map _ ++ _ = _
  rw [clean]
  rfl

/-- **A line that exceeds a limit has exactly one diagnostic**, at the first token past a limit. -/
theorem diagnostics_of_exceeding (clean : (tokenize text).2 = []) (derived : tree.Derives .expr)
    (leaves : tree.leaves = significant text)
    (beyond : 1024 < tree.operatorCount ∨ 255 < tree.nesting) :
    (∃ cause place, tree.Exceeds 256 1024 cause place) ∧
      ∀ cause place, tree.Exceeds 256 1024 cause place →
        ∃ token, (significant text)[place]? = some token ∧
          (parse text).parseFaults = [⟨cause, token.span⟩] ∧
          (parse text).diagnostics = [⟨cause.message, token.span⟩] := by
  obtain ⟨cause, place, breaks⟩ := Expr.exists_breaksOff beyond
  refine ⟨⟨cause, place, breaks.exceeds⟩, fun cause' place' exceeds => ?_⟩
  obtain ⟨rfl, rfl⟩ := exceeds.unique breaks.exceeds
  exact faults_of_breaksOff clean derived leaves breaks

/-- Both limits are exceeded; the operators are too many before the signs are. -/
theorem diagnostics_of_exceeding_longThenDeep :
    1024 < Formula.longThenDeep.operatorCount ∧ 255 < Formula.longThenDeep.nesting ∧
      ∃ token ∈ significant Formula.longThenDeep.render,
        (parse Formula.longThenDeep.render).diagnostics =
          [⟨"expression has more than 1024 operators", token.span⟩] := by
  have long : 1024 < Formula.longThenDeep.operatorCount := by decide +kernel
  have deep : 255 < Formula.longThenDeep.nesting := by decide +kernel
  have leftLong : 1024 < (Formula.balancedSum 11).operatorCount := by decide +kernel
  have leftShallow : (Formula.balancedSum 11).nesting < 255 := by decide +kernel
  obtain ⟨clean, derived, leaves⟩ := Formula.longThenDeep.tree_spelled
  obtain ⟨-, reported⟩ := diagnostics_of_exceeding clean derived leaves
    (.inl (by rw [Formula.operatorCount_tree]; exact long))
  have left : ∃ cause place, Expr.BreaksOff 255 1024 ((Formula.balancedSum 11).tree 1) cause place :=
    Expr.exists_breaksOff (.inl (by rw [Formula.operatorCount_tree]; exact leftLong))
  obtain ⟨cause, place, breaks⟩ := left
  rcases breaks.exceeds.cause_eq with ⟨rfl, -⟩ | ⟨-, leftDeep⟩
  · have exceeds : (Formula.longThenDeep.tree 0).Exceeds 256 1024 .tooLong (1 + place) :=
      (Expr.BreaksOff.inner (.left breaks)).exceeds
    obtain ⟨token, found, -, diagnostics⟩ := reported _ _ exceeds
    exact ⟨long, deep, token, List.mem_of_getElem? found, diagnostics⟩
  · rw [Formula.nesting_tree] at leftDeep
    omega

/-! ### The deepest lines -/

/-- **A line with few operators is accepted exactly if it nests less than 256 levels below its
root.** Else it is refused for nesting deeper than 256 levels, at the first token that opens a part
so many levels down. -/
theorem accepted_iff_nesting_lt (clean : (tokenize text).2 = []) (derived : tree.Derives .expr)
    (leaves : tree.leaves = significant text) (few : tree.operatorCount ≤ 1024) :
    ((parse text).diagnostics = [] ↔ tree.nesting < 256) ∧
      (256 ≤ tree.nesting → ∃ place token, tree.Exceeds 256 1024 .tooDeep place ∧
        (significant text)[place]? = some token ∧
        (parse text).diagnostics = [⟨"expression nests deeper than 256 levels", token.span⟩]) := by
  have refused : 256 ≤ tree.nesting → ∃ place token, tree.Exceeds 256 1024 .tooDeep place ∧
      (significant text)[place]? = some token ∧
      (parse text).diagnostics = [⟨"expression nests deeper than 256 levels", token.span⟩] := by
    intro deep
    obtain ⟨cause, place, breaks⟩ := Expr.exists_breaksOff (.inr deep)
    obtain ⟨token, found, -, diagnostics⟩ := faults_of_breaksOff clean derived leaves breaks
    rcases breaks.exceeds.cause_eq with ⟨rfl, long⟩ | ⟨rfl, -⟩
    · exact absurd few (Nat.not_le_of_lt long)
    · exact ⟨place, token, breaks.exceeds, found, diagnostics⟩
  refine ⟨⟨fun accepted => ?_, fun shallow => ?_⟩, refused⟩
  · by_contra deep
    obtain ⟨place, token, -, -, diagnostics⟩ := refused (Nat.le_of_not_lt deep)
    rw [accepted] at diagnostics
    cases diagnostics
  · exact (parse_of_spells clean ⟨derived, leaves, few, Nat.le_of_lt_succ shallow⟩).1

theorem accepted_iff_nesting_lt_manySigns :
    (Formula.manySigns 256).nesting = 256 ∧
      ∃ token ∈ significant (Formula.manySigns 256).render,
        (parse (Formula.manySigns 256).render).diagnostics =
          [⟨"expression nests deeper than 256 levels", token.span⟩] := by
  obtain ⟨clean, derived, leaves⟩ := (Formula.manySigns 256).tree_spelled
  obtain ⟨none, deepest⟩ := Formula.measures_tree_manySigns 256
  obtain ⟨-, refused⟩ := accepted_iff_nesting_lt clean derived leaves (by omega)
  obtain ⟨place, token, -, found, diagnostics⟩ := refused (by omega)
  exact ⟨Formula.nesting_manySigns 256, token, List.mem_of_getElem? found, diagnostics⟩

/-- Not every line that nests at most 256 levels below its root is accepted: one with 256 signs is
not. -/
theorem not_accepted_of_nesting_le :
    ¬ ∀ (text : String) (tree : Expr), (tokenize text).2 = [] → tree.Derives .expr →
      tree.leaves = significant text → tree.operatorCount ≤ 1024 → tree.nesting ≤ 256 →
      (parse text).diagnostics = [] := by
  intro accepted
  obtain ⟨clean, derived, leaves⟩ := (Formula.manySigns 256).tree_spelled
  obtain ⟨none, deepest⟩ := Formula.measures_tree_manySigns 256
  have quiet := accepted _ _ clean derived leaves (by omega) (by omega)
  obtain ⟨cause, place, breaks⟩ := Expr.exists_breaksOff (.inr (Nat.le_of_eq deepest.symm))
  obtain ⟨token, -, -, diagnostics⟩ := faults_of_breaksOff clean derived leaves breaks
  rw [quiet] at diagnostics
  cases diagnostics

end IntCalc
