/-
**Only the kinds and the values of significant tokens matter.**

Blanks, foreign characters, leading zeros and places do not tell lines apart for the parser and the
evaluation. If the significant tokens of two lines are the same when bare, then tokens with the same
index correspond, and the parsers start parallel (`parallel_line`). So the lines have the same tree
when bare, the same faults of reading at corresponding tokens, and evaluations that end alike
(`parse_alike`).
-/
import IntCalc.Proofs.Line
import IntCalc.Proofs.Parser.Parallel

namespace IntCalc

/-- Two tokens stand at the same index among the significant tokens of two lines. -/
def Corresponding (text text' : String) (token token' : Token) : Prop :=
  ∃ index : Nat, (significant text)[index]? = some token ∧ (significant text')[index]? = some token'

/-- The significant tokens of two lines have the same kinds and values, one by one. -/
def Agree (text text' : String) : Prop :=
  (significant text).map Token.bare = (significant text').map Token.bare

instance (text text' : String) : Decidable (Agree text text') :=
  inferInstanceAs (Decidable ((significant text).map Token.bare = _))

variable {text text' : String}

namespace Agree

variable (agree : Agree text text')

include agree

theorem bare_eq {token token' : Token} (tokens : Corresponding text text' token token') :
    token.bare = token'.bare := by
  obtain ⟨index, here, here'⟩ := tokens
  have bares : ((significant text).map Token.bare)[index]? =
      ((significant text').map Token.bare)[index]? := by rw [agree]
  rw [List.getElem?_map, List.getElem?_map, here, here'] at bares
  exact Option.some.inj bares

/-- Every significant token corresponds to the one with its index. -/
theorem corresponding :
    List.Forall₂ (Corresponding text text') (significant text) (significant text') := by
  refine List.forall₂_iff_get.mpr ⟨by simpa using congrArg List.length agree, ?_⟩
  intro index before before'
  exact ⟨index, List.getElem?_eq_getElem before, List.getElem?_eq_getElem before'⟩

theorem parallel_lineStart :
    Parser.Parallel (Corresponding text text') (lineStart text) (lineStart text') :=
  ⟨agree.corresponding, rfl, rfl, .nil⟩

/-- **The lines are read in parallel**, with corresponding trees. -/
theorem parallel_line :
    (parse text).root.Corresponds (Corresponding text text') (parse text').root ∧
      Parser.Parallel (Corresponding text text') (lineEnd text) (lineEnd text') := by
  obtain ⟨root', end', reads', roots, ends⟩ :=
    (reads_line text).parallel agree.bare_eq .expression agree.parallel_lineStart
  have read : ((parse text').root, lineEnd text') = (root', end') := reads'.run_eq
  obtain ⟨rfl, rfl⟩ := Prod.mk.inj read
  exact ⟨roots, ends⟩

end Agree

theorem stop_reportTrailing_lineEnd (text : String) :
    (lineEnd text).reportTrailing.stop = text.utf8ByteSize := by
  rw [Parser.stop_reportTrailing, (moves_line text).stop_eq]
  rfl

/-- **Only the kinds and the values of the significant tokens matter.** If two lines agree in them,
their trees differ in nothing but places and texts of tokens, they have the same faults of reading
at corresponding tokens or both at the end, and their trees evaluate to the same value or to the
same fault at corresponding operators. -/
theorem parse_alike (agree : Agree text text') :
    (parse text).root.bare = (parse text').root.bare ∧
      List.Forall₂
        (Parser.FaultsCorrespond (Corresponding text text') text.utf8ByteSize text'.utf8ByteSize)
        (parse text).parseFaults (parse text').parseFaults ∧
      Evaluation.Alike
        (Expr.AtOperators (Corresponding text text') (parse text).root (parse text').root)
        (parse text).root.evaluate (parse text').root.evaluate := by
  obtain ⟨roots, ends⟩ := agree.parallel_line
  refine ⟨roots.bare_eq agree.bare_eq, ?_, roots.evaluate agree.bare_eq⟩
  have faults := ends.reportTrailing.faults
  rwa [stop_reportTrailing_lineEnd, stop_reportTrailing_lineEnd] at faults

/-- A quotient by zero in front of a closing parenthesis too many, bare and in disguise. -/
theorem parse_alike_disguisedQuotient :
    Agree "1/0)" " 01 / é00 )" ∧
      (parse "1/0)").root.bare = (parse " 01 / é00 )").root.bare ∧
      List.Forall₂ (Parser.FaultsCorrespond (Corresponding "1/0)" " 01 / é00 )") 4 12)
        (parse "1/0)").parseFaults (parse " 01 / é00 )").parseFaults ∧
      Evaluation.Alike
        (Expr.AtOperators (Corresponding "1/0)" " 01 / é00 )") (parse "1/0)").root
          (parse " 01 / é00 )").root)
        (parse "1/0)").root.evaluate (parse " 01 / é00 )").root.evaluate :=
  ⟨by decide +kernel, parse_alike (by decide +kernel)⟩

end IntCalc
