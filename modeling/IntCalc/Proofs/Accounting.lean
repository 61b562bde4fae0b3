/-
**No token of a line is lost, and none is made up, without a fault.**

Whatever a line looks like, the leaves of its tree are its significant tokens in their order, with
some left out and some put in. What is left out has a fault that covers it, and what is put in is
counted by the faults (`accounts_parse`). The books are those of the reading of the line; what the
reading leaves over is covered by the report of the trailing tokens (`within_through`).
-/
import IntCalc.Proofs.Line
import IntCalc.Proofs.Parser.Accounts

namespace IntCalc

/-- A span lies inside another. -/
def Span.Within (inner outer : Span) : Prop := outer.start ≤ inner.start ∧ inner.stop ≤ outer.stop

/-- **The tree and the faults of a line account for tokens.** -/
structure ParsedLine.Accounts (line : ParsedLine) (tokens : List Token) : Prop where
  /-- The leaves that are not put in are tokens, in their order. -/
  kept : (line.root.leaves.filter (!·.isPutIn)).Sublist tokens
  /-- A token that is no leaf is reported by itself, or was given up at a limit, or is part of the
  trailing input. -/
  covered : ∀ token ∈ tokens, token ∉ line.root.leaves →
    Excused line.parseFaults token ∨
      ∃ span, ⟨.trailingInput, span⟩ ∈ line.parseFaults ∧ token.span.Within span
  /-- A number is put in for every operand that is reported missing, and one more if the line nests
  too deep. -/
  numbers : line.root.leaves.countP (·.standsFor .number) =
    line.parseFaults.countP (·.value.lacksOperand) +
      if ∃ fault ∈ line.parseFaults, fault.value = .tooDeep then 1 else 0
  /-- If no limit is exceeded, a closing parenthesis is put in for every one that is reported
  missing. -/
  closings : (∀ fault ∈ line.parseFaults, fault.value.isLimit = false) →
    line.root.leaves.countP (·.standsFor .closeParen) =
      line.parseFaults.countP (·.value.lacksClosing)

/-! ### The tokens of a line -/

/-- The significant tokens stand one behind the other. -/
theorem pairwise_significant (text : String) :
    (significant text).Pairwise fun first second => first.span.stop ≤ second.position := by
  rw [significant_eq_scan]
  exact (Token.pairwise_scan 0 text.toList).filter _

theorem ordered_significant (text : String) :
    (significant text).Pairwise (·.position ≤ ·.position) :=
  (pairwise_significant text).imp fun {first _} apart =>
    Nat.le_trans first.span.start_le_stop apart

theorem isPutIn_of_mem_significant {text : String} {token : Token}
    (member : token ∈ significant text) : token.isPutIn = false := by
  rw [significant_eq_scan] at member
  exact decide_eq_false (Token.text_ne_of_mem_scan (List.mem_filter.mp member).1)

/-! ### What is left over -/

theorem stop_le_getLastD {first : Token} {others : List Token}
    (apart : (first :: others).Pairwise fun earlier later => earlier.span.stop ≤ later.position)
    {token : Token} (member : token ∈ first :: others) :
    token.span.stop ≤ (others.getLastD first).span.stop := by
  induction others generalizing first token with
  | nil =>
    rw [List.mem_singleton.mp member]
    exact Nat.le_refl _
  | cons second others ih =>
    rw [List.getLastD_cons]
    rcases List.mem_cons.mp member with rfl | later
    · calc
        token.span.stop ≤ second.position := List.rel_of_pairwise_cons apart List.mem_cons_self
        _ ≤ second.span.stop := second.span.start_le_stop
        _ ≤ (others.getLastD second).span.stop := ih apart.of_cons List.mem_cons_self
    · exact ih apart.of_cons later

theorem within_through {first : Token} {others : List Token}
    (apart : (first :: others).Pairwise fun earlier later => earlier.span.stop ≤ later.position)
    {token : Token} (member : token ∈ first :: others) :
    token.span.Within (first.span.through (others.getLastD first).span) := by
  constructor
  · rw [Span.start_through]
    rcases List.mem_cons.mp member with rfl | later
    · exact Nat.le_refl _
    · exact Nat.le_trans first.span.start_le_stop (List.rel_of_pairwise_cons apart later)
  · rw [Span.stop_through]
    exact Nat.le_trans (stop_le_getLastD apart member) (Nat.le_max_left ..)

/-- What a reading leaves over lies inside the trailing input that is reported. -/
theorem exists_trailing {text : String} {token : Token} (left : token ∈ (lineEnd text).rest) :
    ∃ span, ⟨.trailingInput, span⟩ ∈ (parse text).parseFaults ∧ token.span.Within span := by
  have apart := (pairwise_significant text).sublist (moves_line text).rest_sublist
  have reported := faults_reportTrailing (haltedAtEnd_lineEnd text)
  rw [← parseFaults_parse] at reported
  cases rest : (lineEnd text).rest with
  | nil =>
    rw [rest] at left
    cases left
  | cons first others =>
    rw [rest] at left apart reported
    refine ⟨_, ?_, within_through apart left⟩
    rw [reported]
    exact List.mem_append_right _ List.mem_cons_self

/-- The faults of a line are those of its reading, but for trailing input. -/
theorem countP_parseFaults (text : String) (test : ParseFault → Bool)
    (other : test .trailingInput = false) :
    (parse text).parseFaults.countP (test ·.value) = (lineEnd text).count test := by
  rw [parseFaults_parse, faults_reportTrailing (haltedAtEnd_lineEnd text), List.countP_append]
  cases (lineEnd text).rest with
  | nil => rfl
  | cons first others => simp [other, Parser.count]

/-! ### The books of a line -/

theorem count_lineStart (text : String) (test : ParseFault → Bool) :
    (lineStart text).count test = 0 := rfl

theorem count_limit_lineEnd (text : String) :
    (lineEnd text).count (·.isLimit) = (lineEnd text).halted.toNat := by
  have counted := (moves_line text).count_limit
  rw [count_lineStart, Nat.zero_add] at counted
  exact counted

/-- The limit on nesting is exceeded once or never. -/
theorem count_tooDeep_lineEnd (text : String) :
    (lineEnd text).count (· = .tooDeep) =
      if ∃ fault ∈ (parse text).parseFaults, fault.value = .tooDeep then 1 else 0 := by
  have few : (lineEnd text).count (· = .tooDeep) ≤ (lineEnd text).count (·.isLimit) :=
    List.countP_mono_left fun fault _ deep => by rw [of_decide_eq_true deep]; rfl
  rw [count_limit_lineEnd] at few
  have once : (lineEnd text).count (· = .tooDeep) ≤ 1 := Nat.le_trans few (Bool.toNat_le _)
  have counted := countP_parseFaults text (· = .tooDeep) rfl
  split
  · rename_i recorded
    have some : 0 < (parse text).parseFaults.countP (·.value = .tooDeep) := by
      simpa [List.countP_pos_iff] using recorded
    omega
  · rename_i never
    have none : (parse text).parseFaults.countP (·.value = .tooDeep) = 0 := by
      simpa [List.countP_eq_zero] using never
    omega

/-- **No token of a line is lost or made up without a fault.** -/
theorem accounts_parse (text : String) : (parse text).Accounts (significant text) := by
  have moves := moves_line text
  have written : ∀ token ∈ significant text, token.isPutIn = false :=
    fun _ => isPutIn_of_mem_significant
  refine ⟨?_, fun token given absent => ?_, ?_, fun unlimited => ?_⟩
  · exact (List.sublist_append_left _ _).trans moves.sublist
  · rcases moves.accounted (ordered_significant text) given with leaf | left | excused
    · exact absurd leaf absent
    · exact .inr (exists_trailing left)
    · rw [parseFaults_parse, faults_reportTrailing (haltedAtEnd_lineEnd text)]
      exact .inl (excused.append _)
  · have counted := moves.count_number written
    rw [count_lineStart, count_lineStart, count_tooDeep_lineEnd] at counted
    rw [countP_parseFaults text (·.lacksOperand) rfl, counted]
    omega
  · have counted := countP_parseFaults text (·.isLimit) rfl
    rw [List.countP_eq_zero.mpr (by simpa using unlimited), count_limit_lineEnd] at counted
    have running : (lineEnd text).halted = false := by
      cases halted : (lineEnd text).halted with
      | false => rfl
      | true => simp [halted] at counted
    have closings := moves.count_closing running written
    rw [count_lineStart, Nat.zero_add] at closings
    rw [countP_parseFaults text (·.lacksClosing) rfl, closings]

end IntCalc
