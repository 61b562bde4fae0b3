/-
**Which lines are accepted, and as what.**

A tree spells a line if it is a tree of the grammar, its leaves are the significant tokens of the
line, and it stays within the two limits. A line is accepted exactly if its tokens are faultless and
some tree spells it; that tree is the only one of the grammar over these tokens, and it is the tree
that the parser answers with (`parse_accepts_iff_spells`).

* `spells_of_accepted`: the tree of an accepted line spells it, from what all readings keep;
* `parse_of_spells`: a line that a tree spells is read as this tree;
* `Derives.eq_of_leaves_eq`: trees of the grammar with the same leaves are the same. Their number of
  operators is fixed by the leaves, and with levels enough for both the parser reads both.
-/
import IntCalc.Proofs.Line
import IntCalc.Proofs.Parser.Completeness
import IntCalc.Proofs.Parser.Trees

namespace IntCalc

/-- **A tree spells a line.** -/
structure Expr.Spells (tree : Expr) (text : String) : Prop where
  derives : tree.Derives .expr
  leaves : tree.leaves = significant text
  few : tree.operatorCount ≤ 1024
  /-- It nests no deeper than is allowed; the root takes the first of the levels. -/
  shallow : tree.nesting ≤ 255

/-! ### From the parser to the grammar -/

/-- **The tree of an accepted line spells it.** -/
theorem spells_of_accepted {text : String} (accepted : (parse text).diagnostics = []) :
    (parse text).root.Spells text := by
  obtain ⟨-, quiet, spent⟩ := (diagnostics_parse_eq_nil_iff text).mp accepted
  have reads := reads_line text
  have counted := reads.operators_eq
  have within := reads.operators_le (Nat.zero_le _)
  have fits := reads.nesting_lt rfl trivial
  refine ⟨(reads.derives trivial).1, ?_, ?_, ?_⟩
  · obtain ⟨-, taken⟩ := (moves_line text).rest_eq_of_quiet rfl quiet
    rw [spent, List.append_nil] at taken
    exact taken.symm
  · simp only [Parser.Goal.operatorCount, lineStart, Parser.ofTokens, maxOperators] at counted within
    omega
  · rcases fits with fits | ⟨fault, member, -⟩
    · exact Nat.le_of_lt_succ fits
    · rw [quiet] at member
      cases member

/-! ### From the grammar to the parser -/

/-- **A line that a tree spells is read as this tree.** -/
theorem parse_of_spells {text : String} {tree : Expr} (clean : (tokenize text).2 = [])
    (spells : tree.Spells text) :
    (parse text).diagnostics = [] ∧ (parse text).root = tree := by
  have read := Parser.run_of_derives spells.derives maxLevels (lineStart text)
    spells.leaves.symm (Nat.lt_succ_of_le spells.shallow)
    (by rw [lineStart, Parser.ofTokens, Nat.zero_add]; exact spells.few)
  have ended : lineEnd text = (lineStart text).past [] tree.operatorCount := congrArg Prod.snd read
  refine ⟨(diagnostics_parse_eq_nil_iff text).mpr ⟨clean, ?_, ?_⟩, congrArg Prod.fst read⟩
  · rw [ended]
    rfl
  · rw [ended]
    rfl

/-- **Trees of the grammar with the same leaves are the same.** -/
theorem Expr.Derives.eq_of_leaves_eq {first second : Expr} (derived : first.Derives .expr)
    (derived' : second.Derives .expr) (same : first.leaves = second.leaves)
    (few : first.operatorCount ≤ maxOperators) : first = second := by
  have counts : first.operatorCount + 1 = second.operatorCount + 1 := by
    rw [← derived.numbers_leaves, ← derived'.numbers_leaves, same]
  have read := Parser.run_of_derives derived (first.nesting + second.nesting + 1)
    (.ofTokens first.leaves 0) rfl
    (by omega) (by rw [Parser.ofTokens, Nat.zero_add]; exact few)
  have read' := Parser.run_of_derives derived' (first.nesting + second.nesting + 1)
    (.ofTokens first.leaves 0) same
    (by omega) (by rw [Parser.ofTokens, Nat.zero_add]; omega)
  exact congrArg Prod.fst (read.symm.trans read')

/-- **A line is accepted exactly if its tokens are faultless and a tree spells it**; that tree is the
only one of the grammar over its tokens, and the one that is answered. -/
theorem parse_accepts_iff_spells (text : String) :
    ((parse text).diagnostics = [] ↔ (tokenize text).2 = [] ∧ ∃ tree : Expr, tree.Spells text) ∧
      ((parse text).diagnostics = [] → (parse text).root.Spells text ∧
        ∀ tree : Expr, tree.Derives .expr → tree.leaves = significant text →
          tree = (parse text).root) := by
  refine ⟨⟨fun accepted => ?_, fun ⟨clean, tree, spells⟩ => (parse_of_spells clean spells).1⟩,
    fun accepted => ?_⟩
  · have clean := ((diagnostics_parse_eq_nil_iff text).mp accepted).1
    exact ⟨clean, (parse text).root, spells_of_accepted accepted⟩
  · have spells := spells_of_accepted accepted
    refine ⟨spells, fun tree derived leaves => ?_⟩
    have same : (parse text).root.leaves = tree.leaves := by rw [spells.leaves, leaves]
    exact (spells.derives.eq_of_leaves_eq derived same spells.few).symm

end IntCalc
