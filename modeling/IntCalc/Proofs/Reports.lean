/-
**The faults of a line, and how they end.**

The faults of the order of tokens begin with the tokens that were dropped where an operand should
come. Behind them there is exactly one of three endings: a limit that was exceeded; what is missing
at the end of the line; or a token that cannot be read on, where every parenthesis that is still open
is missing its closing one, and what is left over from there. The number of parentheses that are
reported is that of the parentheses of the tree whose closing one was put in, and all faults are in
the order of the line (`reports_parse`).

The reading of the line leads to a settled state (`Reads.settled`), whose faults are those of an
ending but for the tokens that are left (`exists_endsBy`).
-/
import IntCalc.Proofs.Accounting
import IntCalc.Proofs.Parser.Order
import IntCalc.Proofs.Parser.Recovery

namespace IntCalc

/-! ### Endings -/

/-- The opening parentheses of a tree whose closing one was put in. -/
def Expr.unclosed : Expr → List Token
  | number _ => []
  | unary _ operand => operand.unclosed
  | binary left _ right => left.unclosed ++ right.unclosed
  | paren opening inner closing =>
    (if closing.isPutIn then [opening] else []) ++ inner.unclosed

/-- How the faults of a line end. -/
inductive Ending where
  /-- A limit was exceeded. -/
  | limit
  /-- Everything was read. -/
  | endOfLine
  /-- Tokens are left over. -/
  | leftOver
  deriving DecidableEq, Repr

/-- The faults of an ending, in a line with the given significant tokens that stops at the given
position, and of whose parentheses the given number is not closed. -/
inductive Ending.Lists (tokens : List Token) (stop unclosed : Nat) :
    Ending → List (Located ParseFault) → Prop
  | limit {fault : Located ParseFault} (exceeded : fault.value = .tooDeep ∨ fault.value = .tooLong) :
      Lists tokens stop unclosed .limit [fault]
  | endOfLine {absent : Nat} (once : absent ≤ 1) :
      Lists tokens stop unclosed .endOfLine
        (List.replicate absent ⟨.expectedExpression .endOfFile, .empty stop⟩ ++
          List.replicate unclosed ⟨.expectedCloseParen .endOfFile, .empty stop⟩)
  | leftOver {token : Token} {span : Span} (given : token ∈ tokens)
      (kind : token.kind = .number ∨ token.kind = .openParen ∨
        token.kind = .closeParen ∧ unclosed = 0)
      (starts : span.start = token.position) :
      Lists tokens stop unclosed .leftOver
        (List.replicate unclosed ⟨.expectedCloseParen token.kind, token.span⟩ ++
          [⟨.trailingInput, span⟩])

/-- The faults of a line are those of the tokens that were dropped where an operand should come, and
behind them those of an ending. -/
def ParsedLine.EndsBy (line : ParsedLine) (text : String) (ending : Ending) : Prop :=
  ∃ (dropped : List Token) (tail : List (Located ParseFault)),
    line.parseFaults =
        dropped.map (fun token => ⟨.expectedExpression token.kind, token.span⟩) ++ tail ∧
      dropped.Sublist (significant text) ∧ dropped.Pairwise (·.position < ·.position) ∧
      (∀ token ∈ dropped,
        token.kind = .star ∨ token.kind = .slash ∨ token.kind = .closeParen) ∧
      ending.Lists (significant text) text.utf8ByteSize line.root.unclosed.length tail

/-- **What is reported of a line.** -/
structure ParsedLine.Reports (line : ParsedLine) (text : String) : Prop where
  /-- The faults of the tokens come before those of their order. -/
  diagnostics : line.diagnostics =
    (tokenize text).2.map (·.diagnostic LexFault.message) ++
      line.parseFaults.map (·.diagnostic ParseFault.message)
  /-- The faults have exactly one ending. -/
  ending : ∃! ending, line.EndsBy text ending
  /-- The faults are in the order of the line. -/
  ordered : line.parseFaults.Pairwise (·.span.start ≤ ·.span.start)

/-! ### Only one ending -/

/-- The ending that some faults have, by what is among them. -/
def Ending.ofFaults (faults : List (Located ParseFault)) : Ending :=
  if faults.any (·.value.isLimit) then .limit
  else if faults.any (·.value = .trailingInput) then .leftOver
  else .endOfLine

theorem Ending.Lists.eq_ofFaults {tokens dropped : List Token} {stop unclosed : Nat}
    {ending : Ending} {tail : List (Located ParseFault)}
    (lists : ending.Lists tokens stop unclosed tail) :
    ending = ofFaults (dropped.map Token.noOperand ++ tail) := by
  cases lists with
  | limit exceeded =>
    rcases exceeded with deep | long
    · simp [ofFaults, deep, ParseFault.isLimit]
    · simp [ofFaults, long, ParseFault.isLimit]
  | endOfLine once => simp [ofFaults, ParseFault.isLimit, Token.noOperand, List.any_replicate]
  | leftOver given kind starts =>
    simp [ofFaults, ParseFault.isLimit, Token.noOperand, List.any_replicate]

theorem ParsedLine.EndsBy.eq_ofFaults {line : ParsedLine} {text : String} {ending : Ending}
    (ends : line.EndsBy text ending) : ending = .ofFaults line.parseFaults := by
  obtain ⟨dropped, tail, faults, -, -, -, lists⟩ := ends
  rw [faults]
  exact lists.eq_ofFaults

/-! ### Parentheses that are not closed -/

theorem Token.standsFor_eq_false {token : Token} {kind : Token.Kind} (other : token.kind ≠ kind) :
    token.standsFor kind = false := by
  simp [standsFor, other]

/-- The closing parentheses that were put in are those of the parentheses that are not closed. -/
theorem Expr.Derives.countP_closing {category : Category} {expr : Expr}
    (derived : expr.Derives category) :
    expr.leaves.countP (·.standsFor .closeParen) = expr.unclosed.length := by
  induction derived with
  | @number literal isNumber =>
    have other : literal.standsFor .closeParen = false :=
      Token.standsFor_eq_false (by simp [isNumber])
    simp [leaves, unclosed, other]
  | @paren opening closing inner opens _ closes ih =>
    have other : opening.standsFor .closeParen = false := Token.standsFor_eq_false (by simp [opens])
    have own : closing.standsFor .closeParen = closing.isPutIn := by
      simp [Token.standsFor, closes]
    simp only [leaves, List.countP_cons, List.countP_append, List.countP_nil, other, own, ih,
      unclosed, List.length_append]
    cases closing.isPutIn <;> simp [Nat.add_comm]
  | @signed operator operand sign _ ih =>
    have other : operator.standsFor .closeParen = false :=
      Token.standsFor_eq_false (by rcases sign with kind | kind <;> simp [kind])
    simp [leaves, unclosed, other, ih]
  | @product operator left right _ joins _ first second
  | @sum operator left right _ joins _ first second =>
    have other : operator.standsFor .closeParen = false :=
      Token.standsFor_eq_false (by rcases joins with kind | kind <;> simp [kind])
    simp [leaves, unclosed, other, first, second]
  | unaryOfPrimary _ ih | termOfUnary _ ih | exprOfTerm _ ih => exact ih

/-! ### The tokens of a line -/

theorem isSignificant_of_mem_significant {text : String} {token : Token}
    (member : token ∈ significant text) : token.isSignificant = true := by
  rw [significant_eq_scan] at member
  exact (List.mem_filter.mp member).2

theorem position_le_of_mem_significant {text : String} {token : Token}
    (member : token ∈ significant text) : token.position ≤ text.utf8ByteSize := by
  rw [significant_eq_scan] at member
  have inside := Token.stop_le_of_mem_scan (List.mem_filter.mp member).1
  rw [Nat.zero_add, ← Text.utf8ByteSize_eq_byteLength] at inside
  exact Nat.le_trans token.span.start_le_stop inside

/-- The significant tokens start one behind the other. -/
theorem strictly_significant (text : String) :
    (significant text).Pairwise (·.position < ·.position) := by
  refine (pairwise_significant text).imp_of_mem fun member _ apart => ?_
  have written := of_decide_eq_false (isPutIn_of_mem_significant member)
  exact Nat.lt_of_lt_of_le (Token.position_lt_stop written) apart

/-! ### The reading of a line -/

theorem settled_lineEnd (text : String) : (lineEnd text).Settled (significant text) := by
  refine (reads_line text).settled (fun _ => isSignificant_of_mem_significant) ?_
  exact ⟨rfl, [], ⟨List.Sublist.refl _, List.forall_mem_nil _⟩, rfl⟩

theorem inOrder_lineEnd (text : String) : (lineEnd text).InOrder := by
  refine (moves_line text).inOrder ⟨ordered_significant text, ?_, List.Pairwise.nil, ?_⟩
  · exact fun _ => position_le_of_mem_significant
  · exact List.forall_mem_nil _

theorem count_lacksClosing_lineEnd {text : String} (running : (lineEnd text).halted = false) :
    (lineEnd text).count (·.lacksClosing) = (parse text).root.unclosed.length := by
  have counted := (moves_line text).count_closing running fun _ => isPutIn_of_mem_significant
  rw [count_lineStart, Nat.zero_add] at counted
  rw [counted, ((reads_line text).derives trivial).1.countP_closing]

/-- Where the reading of a line leaves tokens over, the first of them could open an operand, or it is
a parenthesis that closes nothing. -/
theorem kind_of_left {text : String} {first : Token} {others : List Token}
    (rest : (lineEnd text).rest = first :: others) :
    first.kind = .number ∨ first.kind = .openParen ∨ first.kind = .closeParen := by
  have known := (settled_lineEnd text).significant fun _ => isSignificant_of_mem_significant
  have ends : Precedence.lowest.above? (lineEnd text).current.kind = none :=
    ((reads_line text).derives trivial).2
  by_cases closes : first.kind = .closeParen
  · exact .inr (.inr closes)
  · rw [← Parser.current_of_rest rest] at closes ⊢
    rcases Parser.stuck_of_ends known ends closes with number | opens | ended
    · exact .inl number
    · exact .inr (.inl opens)
    · have significant := known first (rest ▸ List.mem_cons_self)
      rw [← Parser.current_of_rest rest, Token.isSignificant, ended] at significant
      cases significant

/-! ### What is reported -/

/-- Where a line is read to its end, everything that is missing is missing there. -/
theorem lists_of_spent {text : String} {absent : Nat} (unclosed : Nat)
    (spent : (lineEnd text).rest = []) (once : absent ≤ 1) :
    Ending.endOfLine.Lists (significant text) text.utf8ByteSize unclosed
      (List.replicate absent (lineEnd text).current.noOperand ++
        List.replicate unclosed (lineEnd text).current.noClosing) := by
  have stop : (lineEnd text).stop = text.utf8ByteSize := (moves_line text).stop_eq
  have ended : (lineEnd text).current = .endOfFile text.utf8ByteSize :=
    stop ▸ Parser.current_of_rest_nil spent
  rw [ended]
  exact .endOfLine once

/-- Where tokens are left over, all closing parentheses that are missing are missing at the first of
them. -/
theorem lists_of_left {text : String} {unclosed : Nat} {first : Token} {others : List Token}
    (rest : (lineEnd text).rest = first :: others) (given : first ∈ significant text)
    (stuck : 0 < unclosed → (lineEnd text).Stuck) :
    Ending.leftOver.Lists (significant text) text.utf8ByteSize unclosed
      (List.replicate unclosed (lineEnd text).current.noClosing ++
        [⟨.trailingInput, first.span.through (others.getLastD first).span⟩]) := by
  have next := Parser.current_of_rest rest
  rw [next]
  refine .leftOver given ?_ (Span.start_through ..)
  rcases kind_of_left rest with number | opens | closes
  · exact .inl number
  · exact .inr (.inl opens)
  · refine .inr (.inr ⟨closes, Nat.eq_zero_of_not_pos fun some => ?_⟩)
    exact Parser.not_stuck_of_closeParen (next ▸ closes) (stuck some)

/-- **The faults of a line have an ending.** -/
theorem exists_endsBy (text : String) : ∃ ending, (parse text).EndsBy text ending := by
  have reported := faults_reportTrailing (haltedAtEnd_lineEnd text)
  rw [← parseFaults_parse] at reported
  have ends {dropped : List Token} {tail : List (Located ParseFault)} {ending : Ending}
      (drops : Parser.Drops (significant text) dropped (lineEnd text))
      (faults : (parse text).parseFaults = dropped.map Token.noOperand ++ tail)
      (lists : ending.Lists (significant text) text.utf8ByteSize
        (parse text).root.unclosed.length tail) : ∃ ending, (parse text).EndsBy text ending := by
    have front := (List.sublist_append_left _ _).trans drops.kept
    exact ⟨ending, dropped, tail, faults, front, (strictly_significant text).sublist front,
      drops.misplaced, lists⟩
  cases settled_lineEnd text with
  | @halted dropped fault drops halted spent limit faults =>
    rw [faults, spent, List.append_nil] at reported
    refine ends drops reported (.limit ?_)
    cases value : fault.value with
    | tooDeep => exact .inl rfl
    | tooLong => exact .inr rfl
    | expectedExpression _ | expectedCloseParen _ | trailingInput =>
      simp [value, ParseFault.isLimit] at limit
  | @running dropped absent unclosed drops running once spent stuck faults =>
    have counted : unclosed = (parse text).root.unclosed.length := by
      rw [← count_lacksClosing_lineEnd running, Parser.count, faults]
      simp [List.countP_replicate, Token.noOperand, Token.noClosing, ParseFault.lacksClosing]
    subst counted
    rw [faults, List.append_assoc] at reported
    cases rest : (lineEnd text).rest with
    | nil =>
      rw [rest, List.append_nil] at reported
      exact ends drops reported (lists_of_spent _ rest once)
    | cons first others =>
      have none : absent = 0 := Nat.eq_zero_of_not_pos fun some => by
        rw [spent some] at rest
        cases rest
      have given : first ∈ significant text :=
        drops.kept.subset (List.mem_append_right _ (rest ▸ List.mem_cons_self))
      rw [rest, none, List.replicate_zero, List.nil_append] at reported
      exact ends drops reported (lists_of_left rest given stuck)

/-- **What is reported of a line**, whatever the line is. -/
theorem reports_parse (text : String) : (parse text).Reports text := by
  obtain ⟨ending, ends⟩ := exists_endsBy text
  refine ⟨rfl, ⟨ending, ends, fun other ends' => ends'.eq_ofFaults.trans ends.eq_ofFaults.symm⟩, ?_⟩
  rw [parseFaults_parse, Parser.reportTrailing]
  cases rest : (lineEnd text).rest with
  | nil => exact (inOrder_lineEnd text).faults
  | cons first others =>
    have here : (first.span.through (others.getLastD first).span).start =
        (lineEnd text).current.position := by
      rw [Span.start_through, Parser.current_of_rest rest]
      rfl
    exact ((inOrder_lineEnd text).report _ here).faults

/-- The star is dropped; neither parenthesis is closed before the `2`, which is left over. -/
example : (parse "((1 + * 2").parseFaults =
    [⟨.expectedExpression .star, ⟨6, 1⟩⟩, ⟨.expectedCloseParen .number, ⟨8, 1⟩⟩,
      ⟨.expectedCloseParen .number, ⟨8, 1⟩⟩, ⟨.trailingInput, ⟨8, 1⟩⟩] := by
  decide +kernel

end IntCalc
