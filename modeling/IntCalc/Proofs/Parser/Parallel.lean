/-
**Readings in parallel.**

Two parsers are parallel if the tokens that they have not yet taken are related one by one, they have
counted the same operators, and their faults are the same at corresponding places (`Parallel`). A
parser looks at the kind of the next token, at its counts and at nothing else, so two parallel
parsers make the same moves. Whatever one of them reads, the other reads a tree that corresponds to
it, and then they are parallel again (`Reads.parallel`). The proof goes by induction on the reading
of the first parser and finds that of the second rule by rule; limits are exceeded in both or in
neither, since the levels and the operators are the same.
-/
import IntCalc.Proofs.Correspondence
import IntCalc.Proofs.Parser.Reads
import Mathlib.Data.List.Forall2

namespace IntCalc.Parser

variable {related : Token → Token → Prop}

/-! ### Faults at corresponding places -/

/-- **Two faults of readings that end at the given positions are the same, at corresponding
places**: at related tokens, or both at the end. Trailing input goes from related first tokens to
related last ones. -/
inductive FaultsCorrespond (related : Token → Token → Prop) (stop stop' : Nat) :
    Located ParseFault → Located ParseFault → Prop
  | token {cause : ParseFault} {token token' : Token} (single : cause ≠ .trailingInput)
      (tokens : related token token') :
      FaultsCorrespond related stop stop' ⟨cause, token.span⟩ ⟨cause, token'.span⟩
  | ended {cause : ParseFault} (single : cause ≠ .trailingInput) :
      FaultsCorrespond related stop stop' ⟨cause, .empty stop⟩ ⟨cause, .empty stop'⟩
  | trailing {first first' last last' : Token} (firsts : related first first')
      (lasts : related last last') :
      FaultsCorrespond related stop stop' ⟨.trailingInput, first.span.through last.span⟩
        ⟨.trailingInput, first'.span.through last'.span⟩

/-! ### Parallel parsers -/

/-- **Two parsers stand before related tokens** and have done the same so far. -/
structure Parallel (related : Token → Token → Prop) (parser parser' : Parser) : Prop where
  rest : List.Forall₂ related parser.rest parser'.rest
  operators : parser.operators = parser'.operators
  halted : parser.halted = parser'.halted
  faults : List.Forall₂ (FaultsCorrespond related parser.stop parser'.stop)
    parser.faults.toList parser'.faults.toList

namespace Parallel

variable {parser parser' : Parser} (parallel : Parallel related parser parser')

include parallel

/-- Neither parser has tokens left, or the next tokens are related, and so are those behind them. -/
theorem rest_cases :
    parser.rest = [] ∧ parser'.rest = [] ∨
      ∃ token token' others others', parser.rest = token :: others ∧
        parser'.rest = token' :: others' ∧ related token token' ∧
        List.Forall₂ related others others' := by
  have rest := parallel.rest
  generalize parser.rest = tokens, parser'.rest = tokens' at rest
  cases rest with
  | nil => exact .inl ⟨rfl, rfl⟩
  | cons next others => exact .inr ⟨_, _, _, _, rfl, rfl, next, others⟩

/-- The tokens that come next are related, or both parsers are at the end. -/
theorem current_cases :
    related parser.current parser'.current ∨
      parser.current = .endOfFile parser.stop ∧ parser'.current = .endOfFile parser'.stop := by
  rcases parallel.rest_cases with
    ⟨spent, spent'⟩ | ⟨token, token', others, others', rest, rest', tokens, -⟩
  · exact .inr ⟨current_of_rest_nil spent, current_of_rest_nil spent'⟩
  · rw [current_of_rest rest, current_of_rest rest']
    exact .inl tokens

theorem related_current (more : parser.current.kind ≠ .endOfFile) :
    related parser.current parser'.current := by
  rcases parallel.current_cases with tokens | ⟨ended, -⟩
  · exact tokens
  · rw [ended] at more
    exact absurd rfl more

theorem kind_current
    (content : ∀ {token token'}, related token token' → token.bare = token'.bare) :
    parser'.current.kind = parser.current.kind := by
  rcases parallel.current_cases with tokens | ⟨ended, ended'⟩
  · exact (Token.kind_eq_of_bare_eq (content tokens)).symm
  · rw [ended, ended']
    rfl

/-! ### Moves -/

theorem advance : Parallel related parser.advance parser'.advance := by
  refine ⟨?_, parallel.operators, parallel.halted, parallel.faults⟩
  rw [rest_advance, rest_advance]
  rcases parallel.rest_cases with
    ⟨spent, spent'⟩ | ⟨token, token', others, others', rest, rest', -, behind⟩
  · rw [spent, spent']
    exact .nil
  · rw [rest, rest']
    exact behind

theorem advanceOperator : Parallel related parser.advanceOperator parser'.advanceOperator :=
  ⟨parallel.advance.rest, congrArg (· + 1) parallel.operators, parallel.halted, parallel.faults⟩

/-- The same fault, at corresponding places, is recorded by both or by neither. -/
theorem record {cause : ParseFault} {span span' : Span}
    (places : FaultsCorrespond related parser.stop parser'.stop ⟨cause, span⟩ ⟨cause, span'⟩) :
    Parallel related (parser.report cause span) (parser'.report cause span') := by
  refine ⟨?_, ?_, ?_, ?_⟩
  · rw [rest_report, rest_report]
    exact parallel.rest
  · rw [operators_report, operators_report]
    exact parallel.operators
  · rw [halted_report, halted_report]
    exact parallel.halted
  · rw [stop_report, stop_report]
    cases halted : parser.halted with
    | true =>
      rw [report_of_halted halted, report_of_halted (parallel.halted ▸ halted)]
      exact parallel.faults
    | false =>
      rw [faults_report halted, faults_report (parallel.halted ▸ halted), Array.toList_push,
        Array.toList_push]
      exact List.rel_append parallel.faults (.cons places .nil)

theorem report {cause : ParseFault} (single : cause ≠ .trailingInput) :
    Parallel related (parser.report cause parser.current.span)
      (parser'.report cause parser'.current.span) := by
  refine parallel.record ?_
  rcases parallel.current_cases with tokens | ⟨ended, ended'⟩
  · exact .token single tokens
  · rw [ended, ended']
    exact .ended single

theorem halt {limit : ParseFault} (single : limit ≠ .trailingInput) :
    Parallel related (parser.halt limit) (parser'.halt limit) :=
  ⟨.nil, (parallel.report single).operators, rfl, (parallel.report single).faults⟩

end Parallel

/-! ### Trailing input -/

theorem related_getLastD {first first' : Token} {others others' : List Token}
    (firsts : related first first') (rests : List.Forall₂ related others others') :
    related (others.getLastD first) (others'.getLastD first') := by
  induction rests generalizing first first' with
  | nil => exact firsts
  | cons seconds _ ih =>
    rw [List.getLastD_cons, List.getLastD_cons]
    exact ih seconds

/-- Trailing input is reported by both or by neither. -/
theorem Parallel.reportTrailing {parser parser' : Parser}
    (parallel : Parallel related parser parser') :
    Parallel related parser.reportTrailing parser'.reportTrailing := by
  unfold Parser.reportTrailing
  rcases parallel.rest_cases with
    ⟨spent, spent'⟩ | ⟨first, first', others, others', rest, rest', firsts, behind⟩
  · rw [spent, spent']
    exact parallel
  · rw [rest, rest']
    exact parallel.record (.trailing firsts (related_getLastD firsts behind))

theorem stop_reportTrailing (parser : Parser) : parser.reportTrailing.stop = parser.stop := by
  unfold reportTrailing
  split
  · rfl
  · exact stop_report ..

/-! ### Readings -/

/-- Two goals are the same, after corresponding first parts. -/
inductive Goal.Corresponds (related : Token → Token → Prop) : Goal → Goal → Prop
  | operand : Corresponds related .operand .operand
  | chain {outer : Precedence} {left left' : Expr} (lefts : left.Corresponds related left') :
      Corresponds related (.chain outer left) (.chain outer left')
  | expression {outer : Precedence} : Corresponds related (.expression outer) (.expression outer)

/-- **Parallel parsers read corresponding trees** and are parallel afterwards. -/
theorem Reads.parallel
    (content : ∀ {token token'}, related token token' → token.bare = token'.bare)
    {levels : Nat} {goal goal' : Goal} {before after before' : Parser} {expr : Expr}
    (reads : Reads levels goal before expr after) (goals : goal.Corresponds related goal')
    (start : Parallel related before before') :
    ∃ expr' after', Reads levels goal' before' expr' after' ∧
      expr.Corresponds related expr' ∧ Parallel related after after' := by
  induction reads generalizing goal' before' with
  | number next =>
    cases goals
    have kind := start.kind_current content
    have literals := content (start.related_current (by simp [next]))
    exact ⟨_, _, .number (kind.trans next), .number literals, start.advance⟩
  | closed next _ closes ih =>
    cases goals
    have kind := start.kind_current content
    obtain ⟨inner', middle', reads', inners, middle⟩ := ih .expression start.advance
    have openings := content (start.related_current (by simp [next]))
    have closings := content (middle.related_current (by simp [closes]))
    have closes' := (middle.kind_current content).trans closes
    exact ⟨_, _, .closed (kind.trans next) reads' closes', .paren openings inners closings,
      middle.advance⟩
  | @unclosed levels parser middle inner next _ lacks ih =>
    cases goals
    have kind := start.kind_current content
    obtain ⟨inner', middle', reads', inners, ends⟩ := ih .expression start.advance
    have openings := content (start.related_current (by simp [next]))
    have found : middle'.current.kind = middle.current.kind := ends.kind_current content
    have lacks' : middle'.current.kind ≠ .closeParen := by rwa [found]
    -- the parentheses that are put in differ in their places only
    refine ⟨_, _, .unclosed (kind.trans next) reads' lacks', .paren openings inners rfl, ?_⟩
    rw [found]
    exact ends.report (by simp)
  | @absent levels parser notNumber notOpen notSign =>
    cases goals
    have kind : before'.current.kind = parser.current.kind := start.kind_current content
    rw [← kind] at notNumber notOpen notSign
    refine ⟨_, _, .absent notNumber notOpen notSign, .number rfl, ?_⟩
    rw [kind]
    exact (start.report (by simp)).advance
  | @signed levels parser after operand next _ ih =>
    cases goals
    have kind : before'.current.kind = parser.current.kind := start.kind_current content
    obtain ⟨operand', after', reads', operands, finish⟩ := ih .expression start.advance
    have more : parser.current.kind ≠ .endOfFile := by
      intro ended
      simp [ended, Precedence.isSign] at next
    rw [← kind] at next
    exact ⟨_, _, .signed next reads', .unary (start.related_current more) operands, finish⟩
  | stop ends =>
    obtain - | ⟨lefts⟩ := goals
    rw [← start.kind_current content] at ends
    exact ⟨_, _, .stop ends, lefts, start⟩
  | link binds few _ _ ihRight ihRest =>
    obtain - | ⟨lefts⟩ := goals
    -- only here do both parsers need the same count: the limit stops both or neither
    have operators := start.related_current (current_kind_ne_of_above? binds)
    obtain ⟨right', middle', right, rights, middle⟩ := ihRight .expression start.advanceOperator
    obtain ⟨whole', after', rest, wholes, finish⟩ :=
      ihRest (.chain (.binary lefts operators rights)) middle
    rw [← start.kind_current content] at binds
    rw [start.operators] at few
    exact ⟨_, _, .link binds few right rest, wholes, finish⟩
  | tooLong binds many =>
    obtain - | ⟨lefts⟩ := goals
    rw [← start.kind_current content] at binds
    rw [start.operators] at many
    exact ⟨_, _, .tooLong binds many, lefts, start.halt (by simp)⟩
  | expression _ _ ihLeft ihRest =>
    cases goals
    obtain ⟨left', middle', left, lefts, middle⟩ := ihLeft .operand start
    obtain ⟨whole', after', rest, wholes, finish⟩ := ihRest (.chain lefts) middle
    exact ⟨_, _, .expression left rest, wholes, finish⟩
  | tooDeep =>
    cases goals
    exact ⟨_, _, .tooDeep, .number rfl, start.halt (by simp)⟩

end IntCalc.Parser
