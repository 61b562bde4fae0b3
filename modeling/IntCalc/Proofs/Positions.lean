/-
**The positions of a tree fit together.**

Whatever a line looks like, the leaves of its tree stand in it one behind the other, and they start
and stop between characters of the line. That includes the leaves that were put in, and where a
limit gave up the rest of the line. So every expression in the tree spans exactly from its first leaf
to its last one, and its parts divide that span in their order (`positions_parse`).

The order of the leaves is that of the row which the reading of the line keeps (`inRow_line`). The
rest is a matter of the tree alone: a span looks at the first and at the last part only, but in a tree
whose leaves are in order nothing reaches beyond these two (`Spans.of_ordered`).
-/
import IntCalc.Proofs.Accounting
import IntCalc.Proofs.Boundaries
import IntCalc.Proofs.Parser.Placement
import IntCalc.Proofs.Subexpressions
import Mathlib.Data.List.Pairwise

namespace IntCalc

/-! ### Spans of tokens -/

/-- A span goes from the start of the first of some tokens to the stop of the last one. -/
structure Span.Frames (span : Span) (tokens : List Token) : Prop where
  start : tokens.head?.map Token.position = some span.start
  stop : tokens.getLast?.map (·.span.stop) = some span.stop

namespace Span.Frames

variable {span : Span} {tokens : List Token}

theorem exists_first (frames : span.Frames tokens) :
    ∃ first ∈ tokens, tokens.head? = some first ∧ first.position = span.start := by
  obtain ⟨first, head, start⟩ := Option.map_eq_some_iff.mp frames.start
  exact ⟨first, List.mem_of_head? head, head, start⟩

theorem exists_last (frames : span.Frames tokens) :
    ∃ last ∈ tokens, tokens.getLast? = some last ∧ last.span.stop = span.stop := by
  obtain ⟨last, ends, stop⟩ := Option.map_eq_some_iff.mp frames.stop
  exact ⟨last, List.mem_of_getLast? ends, ends, stop⟩

theorem single (token : Token) : token.span.Frames [token] := ⟨rfl, rfl⟩

/-- **The join of two spans** frames all tokens from those of the first to those of the last. -/
theorem through {first last : Span} {front middle back : List Token} (opens : first.Frames front)
    (closes : last.Frames back) (ordered : (front ++ middle ++ back).Pairwise Token.Before) :
    (first.through last).Frames (front ++ middle ++ back) := by
  obtain ⟨opening, -, head, start⟩ := opens.exists_first
  obtain ⟨final, inFront, -, firstStop⟩ := opens.exists_last
  obtain ⟨closing, inBack, ends, lastStop⟩ := closes.exists_last
  have later : first.stop ≤ last.stop := by
    calc
      first.stop = final.span.stop := firstStop.symm
      _ ≤ closing.position := (List.pairwise_append.mp ordered).2.2 final
        (List.mem_append_left _ inFront) closing inBack
      _ ≤ closing.span.stop := closing.span.start_le_stop
      _ = last.stop := lastStop
  constructor
  · rw [List.append_assoc, List.head?_append, head, start_through, ← start]
    rfl
  · rw [List.getLast?_append, ends, stop_through, Nat.max_eq_left later, ← lastStop]
    rfl

end Span.Frames

namespace Expr

/-! ### Leaves of parts -/

def Part.leaves : Part → List Token
  | node expr => expr.leaves
  | leaf token => [token]

/-- The leaves of an expression are those of its parts. -/
theorem leaves_eq_flatMap_parts (expr : Expr) : expr.leaves = expr.parts.flatMap Part.leaves := by
  cases expr <;> simp [leaves, parts, Part.leaves]

theorem leaves_sublist_of_mem_operands {expr operand : Expr} (member : operand ∈ expr.operands) :
    operand.leaves.Sublist expr.leaves := by
  cases expr with
  | number literal => cases member
  | unary operator inner =>
    rw [List.mem_singleton.mp member]
    exact List.sublist_cons_self _ _
  | binary left operator right =>
    rcases List.mem_cons.mp member with rfl | isRight
    · exact List.sublist_append_left _ _
    · rw [List.mem_singleton.mp isRight]
      exact (List.sublist_cons_self _ _).trans (List.sublist_append_right _ _)
  | paren opening inner closing =>
    rw [List.mem_singleton.mp member]
    exact (List.sublist_append_left _ _).trans (List.sublist_cons_self _ _)

/-- The leaves of an expression inside another are some of its leaves. -/
theorem leaves_sublist_of_mem_subexpressions {expr sub : Expr} (inside : sub ∈ expr.subexpressions) :
    sub.leaves.Sublist expr.leaves := by
  induction expr using induction_on_operands with
  | step expr ih =>
    rw [subexpressions_eq] at inside
    rcases List.mem_append.mp inside with below | self
    · obtain ⟨operand, among, below⟩ := List.mem_flatMap.mp below
      exact (ih operand among below).trans (leaves_sublist_of_mem_operands among)
    · obtain rfl := List.mem_singleton.mp self
      exact List.Sublist.refl _

/-! ### Spans of expressions -/

/-- **An expression spans its leaves, and its parts divide the span.** -/
structure Spans (expr : Expr) : Prop where
  frames : expr.span.Frames expr.leaves
  covers : ∀ part ∈ expr.parts, part.span.Within expr.span
  apart : expr.parts.Pairwise fun earlier later => earlier.span.stop ≤ later.span.start

theorem frames_of_ordered {expr : Expr} (ordered : expr.leaves.Pairwise Token.Before) :
    expr.span.Frames expr.leaves := by
  induction expr with
  | number literal => exact .single literal
  | unary operator operand ih =>
    have behind := ih (List.pairwise_cons.mp ordered).2
    exact @Span.Frames.through _ _ [operator] [] operand.leaves (.single operator) behind ordered
  | binary left operator right ihLeft ihRight =>
    obtain ⟨inLeft, others, -⟩ := List.pairwise_append.mp ordered
    have back := ihRight (List.pairwise_cons.mp others).2
    rw [leaves, ← List.singleton_append, ← List.append_assoc] at ordered ⊢
    exact (ihLeft inLeft).through back ordered
  | paren opening inner closing _ =>
    rw [leaves, ← List.singleton_append, ← List.append_assoc] at ordered ⊢
    exact (Span.Frames.single opening).through (.single closing) ordered

theorem Part.frames_of_ordered {part : Part} (ordered : part.leaves.Pairwise Token.Before) :
    part.span.Frames part.leaves := by
  cases part with
  | node expr => exact Expr.frames_of_ordered ordered
  | leaf token => exact .single token

/-- The parts of an expression stand one behind the other if its leaves do. -/
theorem parts_apart_of_ordered {expr : Expr} (ordered : expr.leaves.Pairwise Token.Before) :
    expr.parts.Pairwise fun earlier later => earlier.span.stop ≤ later.span.start := by
  rw [leaves_eq_flatMap_parts] at ordered
  obtain ⟨within, across⟩ := List.pairwise_flatMap.mp ordered
  refine across.imp_of_mem fun {earlier later} member member' apart => ?_
  obtain ⟨last, inEarlier, -, stop⟩ := (Part.frames_of_ordered (within earlier member)).exists_last
  obtain ⟨first, inLater, -, start⟩ := (Part.frames_of_ordered (within later member')).exists_first
  rw [← stop, ← start]
  exact apart last inEarlier first inLater

/-- **A tree whose leaves are in order** spans them, and its parts divide the span. -/
theorem Spans.of_ordered {expr : Expr} (ordered : expr.leaves.Pairwise Token.Before) :
    expr.Spans := by
  have apart := parts_apart_of_ordered ordered
  have starts : expr.parts.Pairwise fun earlier later => earlier.span.start ≤ later.span.start :=
    apart.imp fun {earlier _} before => Nat.le_trans earlier.span.start_le_stop before
  have stops : expr.parts.Pairwise fun earlier later => earlier.span.stop ≤ later.span.stop :=
    apart.imp fun {_ later} before => Nat.le_trans before later.span.start_le_stop
  refine ⟨frames_of_ordered ordered, fun part member => ?_, apart⟩
  rw [span_eq_through]
  constructor
  · rw [Span.start_through]
    exact starts.rel_head_of_rel_head_head member (Nat.le_refl _)
  · rw [Span.stop_through]
    exact Nat.le_trans (stops.rel_getLast_of_rel_getLast_getLast member (Nat.le_refl _))
      (Nat.le_max_left ..)

/-! ### Lines -/

/-- **The leaves of a tree stand in a line** one behind the other, and between its characters. -/
structure StandsIn (expr : Expr) (text : String) : Prop where
  ordered : expr.leaves.Pairwise Token.Before
  inside : ∀ leaf ∈ expr.leaves, leaf.span.stop ≤ text.utf8ByteSize
  boundaries : ∀ leaf ∈ expr.leaves,
    Text.IsBoundary text.toList leaf.position ∧ Text.IsBoundary text.toList leaf.span.stop

end Expr

/-- A pending token is a token of the line or stands for its end. -/
theorem Span.Fits.of_mem_pending {text : String} {token : Token}
    (member : token ∈ (lineStart text).pending) : token.span.Fits text := by
  rcases List.mem_append.mp member with given | isLast
  · exact .of_mem_significant given
  · rw [List.mem_singleton.mp isLast]
    exact .endOfLine text

/-- The tokens of a line and its end stand in a row, between the characters of the line. -/
theorem inRow_lineStart (text : String) :
    Parser.InRow (Text.IsBoundary text.toList) (lineStart text).pending := by
  constructor
  · refine List.pairwise_append.mpr ⟨pairwise_significant text, List.pairwise_singleton _ _, ?_⟩
    intro token member last isLast
    rw [List.mem_singleton.mp isLast]
    exact (Span.Fits.of_mem_significant member).stop_le
  · intro token member
    have fits := Span.Fits.of_mem_pending member
    exact ⟨fits.start, fits.stop⟩

theorem inRow_line (text : String) :
    Parser.InRow (Text.IsBoundary text.toList)
      ((parse text).root.leaves ++ (lineEnd text).pending) :=
  (moves_line text).inRow (inRow_lineStart text)

/-- **The leaves of the tree of a line stand in the line**, whatever the line is. -/
theorem standsIn_root (text : String) : (parse text).root.StandsIn text := by
  obtain ⟨ordered, places⟩ := inRow_line text
  obtain ⟨inFront, -, across⟩ := List.pairwise_append.mp ordered
  refine ⟨inFront, fun leaf member => ?_, fun leaf member => ?_⟩
  · have ended : Token.endOfFile (lineEnd text).stop ∈ (lineEnd text).pending :=
      List.mem_append_right _ List.mem_cons_self
    rw [(moves_line text).stop_eq] at ended
    exact across leaf member _ ended
  · exact places leaf (List.mem_append_left _ member)

/-- **The positions of the tree of a line fit together**, whatever the line is: its leaves stand in
the line one behind the other, and every expression in it spans exactly its leaves and is divided by
its parts. -/
theorem positions_parse (text : String) :
    (parse text).root.StandsIn text ∧ (parse text).root.Everywhere Expr.Spans := by
  have stands := standsIn_root text
  refine ⟨stands, fun sub inside => ?_⟩
  exact .of_ordered (stands.ordered.sublist (Expr.leaves_sublist_of_mem_subexpressions inside))

end IntCalc
