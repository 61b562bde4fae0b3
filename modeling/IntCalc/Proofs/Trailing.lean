/-
**Trailing input leaves the tree of a line untouched.**

If a faultless line goes on with something that opens with a number or a parenthesis, then its tree
is the one that the line has by itself, and the parser adds one fault, for all that comes behind
(`parse_append_trailing`).

The two readings are not compared with each other. The tree of the line spells it, so its leaves are
the first tokens of the longer line, and a tree of the grammar is read whole at the front of a row
of tokens if none of them goes on with it (`run_trailing`). What is left over is then the rest of
the row, and the report on it spans the rest (`Span.frames_through`). Where the texts meet, blanks
may run together and foreign characters may stand, but no numeral may go on: it would change the
last token of the line.
-/
import IntCalc.Proofs.Concatenation
import IntCalc.Proofs.Positions
import IntCalc.Proofs.Recognition

namespace IntCalc

/-! ### Tokens behind a tree -/

/-- A token of this kind goes on with no expression that has been read whole. -/
def Token.Kind.Trails (kind : Token.Kind) : Prop :=
  kind = .number ∨ kind = .openParen ∨ kind = .closeParen

instance (kind : Token.Kind) : Decidable kind.Trails :=
  inferInstanceAs (Decidable (kind = .number ∨ kind = .openParen ∨ kind = .closeParen))

theorem Token.Kind.Trails.above?_eq_none {kind : Token.Kind} (trails : kind.Trails)
    (outer : Precedence) : outer.above? kind = none := by
  rcases trails with rfl | rfl | rfl <;> rfl

/-- **What trails behind a tree of the grammar is left over**, and the tree is read as if nothing
did. -/
theorem Parser.run_trailing {tree : Expr} (derived : tree.Derives .expr) (levels : Nat)
    (before : Parser) {first : Token} {others : List Token}
    (next : before.rest = tree.leaves ++ first :: others) (trails : first.kind.Trails)
    (fits : tree.nesting < levels)
    (few : before.operators + tree.operatorCount ≤ maxOperators) :
    (expression levels).run .lowest before =
      (tree, before.past (first :: others) tree.operatorCount) := by
  have front := readAtFront_of_derives derived
  exact (front.reads levels .lowest before (first :: others) (Nat.le_refl _) next
    (fun _ => trails.above?_eq_none .sum) fits few (trails.above?_eq_none .lowest)).run_eq

/-! ### The span of what is left over -/

/-- **The span from the first of some tokens through the last one** frames all of them, if they
stand one behind the other. -/
theorem Span.frames_through {first : Token} {others : List Token}
    (apart : (first :: others).Pairwise fun earlier later => earlier.span.stop ≤ later.position) :
    (first.span.through (others.getLastD first).span).Frames (first :: others) := by
  refine ⟨rfl, ?_⟩
  rw [List.getLast?_cons, ← List.getLastD_eq_getLast?, Option.map_some, stop_through,
    Nat.max_eq_left (stop_le_getLastD apart List.mem_cons_self)]

theorem Span.shift_through (distance : Nat) (first last : Span) :
    (first.shift distance).through (last.shift distance) = (first.through last).shift distance := by
  ext
  · rfl
  · simp only [through, shift, stop]
    omega

/-! ### Trailing input -/

/-- **Trailing input leaves the tree of a faultless line untouched.** What is put behind the line
must open, but for blanks and foreign characters, with a number or a parenthesis, and it must not go
on with a numeral. Then the tree is the same, and the diagnostics are those of the tokens behind the
line, moved, and one for all significant tokens behind the line. -/
theorem parse_append_trailing {front back : String} (accepted : (parse front).diagnostics = [])
    (opens : ∃ first ∈ (significant back).head?, first.kind.Trails)
    (apart : Text.NumeralsApart front.toList back.toList) :
    (parse (front ++ back)).root = (parse front).root ∧
      ∃ span : Span, span.Frames (significant back) ∧
        (parse (front ++ back)).diagnostics =
          (tokenize back).2.map
              (fun fault => (fault.moved front.utf8ByteSize).diagnostic LexFault.message) ++
            [⟨"unexpected trailing input", span.shift front.utf8ByteSize⟩] := by
  obtain ⟨first, starts, trails⟩ := opens
  obtain ⟨others, behind⟩ : ∃ others, significant back = first :: others :=
    ⟨_, List.eq_cons_of_mem_head? starts⟩
  have spells := spells_of_accepted accepted
  have clean := ((diagnostics_parse_eq_nil_iff front).mp accepted).1
  have next : (lineStart (front ++ back)).rest = (parse front).root.leaves ++
      first.shift front.utf8ByteSize :: others.map (Token.shift front.utf8ByteSize) := by
    rw [lineStart, Parser.ofTokens, significant_append apart, behind, spells.leaves, List.map_cons]
  have read : ((parse (front ++ back)).root, lineEnd (front ++ back)) = (_, _) :=
    Parser.run_trailing spells.derives maxLevels (lineStart (front ++ back)) next trails
      (Nat.lt_succ_of_le spells.shallow)
      (by rw [lineStart, Parser.ofTokens, Nat.zero_add]; exact spells.few)
  obtain ⟨root, ended⟩ := Prod.mk.inj read
  have ordered := pairwise_significant back
  rw [behind] at ordered ⊢
  refine ⟨root, _, Span.frames_through ordered, ?_⟩
  have faults : (parse (front ++ back)).parseFaults = [⟨.trailingInput,
      (first.span.through (others.getLastD first).span).shift front.utf8ByteSize⟩] := by
    rw [parseFaults_parse, faults_reportTrailing (haltedAtEnd_lineEnd _), ended]
    simp only [Parser.rest_past, List.getLastD_map, Token.span_shift, Span.shift_through]
    rfl
  rw [ParsedLine.diagnostics, faults, lexFaults_parse, lexFaults_append apart, clean,
    List.nil_append, List.map_map]
  rfl

/-- Blanks meet at the seam, and foreign characters stand around what trails. -/
theorem parse_append_trailing_strayDigit :
    (parse "1+2 ").diagnostics = [] ∧
      (∃ first ∈ (significant " é3(@ ").head?, first.kind.Trails) ∧
      Text.NumeralsApart "1+2 ".toList " é3(@ ".toList ∧
      (parse ("1+2 " ++ " é3(@ ")).root = (parse "1+2 ").root ∧
      (parse ("1+2 " ++ " é3(@ ")).diagnostics =
        [⟨"unexpected character 'é' at position 5", ⟨5, 2⟩⟩,
          ⟨"unexpected character '@' at position 9", ⟨9, 1⟩⟩,
          ⟨"unexpected trailing input", ⟨7, 2⟩⟩] := by
  have accepted : (parse "1+2 ").diagnostics = [] := by decide +kernel
  have opens : ∃ first ∈ (significant " é3(@ ").head?, first.kind.Trails := by decide +kernel
  have apart : Text.NumeralsApart "1+2 ".toList " é3(@ ".toList := by decide
  obtain ⟨root, span, frames, diagnostics⟩ := parse_append_trailing accepted opens apart
  have start : span.start = 3 := Option.some.inj (frames.start.symm.trans (by decide +kernel))
  have stop : span.stop = 5 := Option.some.inj (frames.stop.symm.trans (by decide +kernel))
  have length : span.length = 2 := by
    rw [Span.stop, start] at stop
    omega
  rw [show span = ⟨3, 2⟩ from Span.ext start length] at diagnostics
  exact ⟨accepted, opens, apart, root, diagnostics.trans (by decide +kernel)⟩

end IntCalc
