/-
**Cursors that can be reached.**

From the start of a line a cursor is moved on, in any order and as often as one likes, with any
faults reported and its depth set back to one that it had before: what this leads to can be reached
(`Cursor.Reachable`). The readings make no other moves, so whatever the parser of a line comes to
can be reached (`Cursor.leads_reading`). Much else can be reached too, and nothing here needs to
know in which order the moves are made.

A parser is sound if a buffer holds it, it has halted at the end of the line only, and it has kept
to the limit of operators. Each move leads from where a sound parser stands to where another one
does (`Buffer.Stands`), and so does any row of moves (`Buffer.stands_of_reachable`).
-/
import IntCalc.Proofs.Cursor.Agreement
import IntCalc.Proofs.Interleaving
import IntCalc.Proofs.Reports

namespace IntCalc

/-! ### Reachable cursors -/

namespace Cursor

/-- **A cursor that the parser of a line may come to**: any row of its moves leads there. -/
inductive Reachable (text : String) : Cursor → Prop
  | start : Reachable text (ofString text)
  | next {before after : Cursor} {token : Token} (reached : Reachable text before)
      (takes : before.next? = some (token, after)) : Reachable text after
  | report {before : Cursor} (reached : Reachable text before) (fault : ParseFault) (span : Span) :
      Reachable text (before.report fault span)
  | enter {before after : Cursor} {entered : Bool} (reached : Reachable text before)
      (enters : before.enter? = some (entered, after)) : Reachable text after
  | link {before after : Cursor} {counted : Bool} (reached : Reachable text before)
      (links : before.link? = some (counted, after)) : Reachable text after
  /-- The depth is set back to what it was at some time before. -/
  | leave {before after : Cursor} (outside : Reachable text before)
      (reached : Reachable text after) : Reachable text { after with depth := before.depth }

/-- A closing parenthesis is taken, or it is reported that there is none. -/
theorem Reachable.closeParen {text : String} {before after : Cursor} {token : Token}
    (reached : Reachable text before) (closes : before.closeParen? = some (token, after)) :
    Reachable text after := by
  obtain ⟨next, -, closes⟩ := Option.bind_eq_some_iff.mp closes
  split at closes
  · exact reached.next closes
  · obtain ⟨-, rfl⟩ := Prod.mk.inj (Option.some.inj closes)
    exact reached.report _ _

/-- What is read from a cursor that can be reached ends at another one. -/
def Leads (text : String) (before : Cursor) (read : Expr × Cursor) : Prop :=
  Reachable text before → Reachable text read.2

/-- **Every reading is a row of moves.** The induction is on how often the readings call each other;
an answer is reached after finitely many calls. -/
theorem leads_reading (text : String) :
    (∀ parent cursor read, cursor.expression parent = some read → Leads text cursor read) ∧
    (∀ parent left cursor read, cursor.chain parent left = some read → Leads text cursor read) ∧
    (∀ parent cursor read, cursor.operand parent = some read → Leads text cursor read) ∧
    ∀ cursor read, cursor.primary = some read → Leads text cursor read := by
  refine expression.mutual_partial_correctness (fun _ => Leads text) (fun _ _ => Leads text)
    (fun _ => Leads text) (Leads text) ?expression ?chain ?operand ?primary
  case expression =>
    intro chain operand chained operated parent cursor read reads reached
    obtain ⟨⟨entered, inside⟩, enters, reads⟩ := Option.bind_eq_some_iff.mp reads
    have deeper := reached.enter enters
    dsimp only at reads
    split at reads
    · obtain ⟨⟨left, middle⟩, leading, reads⟩ := Option.bind_eq_some_iff.mp reads
      obtain ⟨⟨whole, after⟩, goesOn, reads⟩ := Option.bind_eq_some_iff.mp reads
      obtain rfl := Option.some.inj reads
      exact reached.leave (chained _ _ _ _ goesOn (operated _ _ _ leading deeper))
    · obtain ⟨token, -, reads⟩ := Option.bind_eq_some_iff.mp reads
      obtain rfl := Option.some.inj reads
      exact deeper
  case chain =>
    intro expression chain expressed chained parent left cursor read reads reached
    obtain ⟨token, -, reads⟩ := Option.bind_eq_some_iff.mp reads
    split at reads
    · obtain rfl := Option.some.inj reads
      exact reached
    · split at reads
      · obtain rfl := Option.some.inj reads
        exact reached
      · obtain ⟨⟨counted, linked⟩, links, reads⟩ := Option.bind_eq_some_iff.mp reads
        have further := reached.link links
        dsimp only at reads
        split at reads
        · obtain ⟨⟨operator, middle⟩, takes, reads⟩ := Option.bind_eq_some_iff.mp reads
          obtain ⟨⟨right, after⟩, inner, reads⟩ := Option.bind_eq_some_iff.mp reads
          exact chained _ _ _ _ reads (expressed _ _ _ inner (further.next takes))
        · obtain rfl := Option.some.inj reads
          exact further
  case operand =>
    intro expression primary expressed primed parent cursor read reads reached
    obtain ⟨token, -, reads⟩ := Option.bind_eq_some_iff.mp reads
    split at reads
    · obtain ⟨⟨operator, middle⟩, takes, reads⟩ := Option.bind_eq_some_iff.mp reads
      obtain ⟨⟨operand, after⟩, inner, reads⟩ := Option.bind_eq_some_iff.mp reads
      obtain rfl := Option.some.inj reads
      exact expressed _ _ (operand, after) inner (reached.next takes)
    · exact primed _ _ reads reached
  case primary =>
    intro expression expressed cursor read reads reached
    obtain ⟨token, -, reads⟩ := Option.bind_eq_some_iff.mp reads
    split at reads
    · obtain ⟨⟨literal, after⟩, takes, reads⟩ := Option.bind_eq_some_iff.mp reads
      obtain rfl := Option.some.inj reads
      exact reached.next takes
    · obtain ⟨⟨opening, inside⟩, takes, reads⟩ := Option.bind_eq_some_iff.mp reads
      obtain ⟨⟨inner, middle⟩, inner, reads⟩ := Option.bind_eq_some_iff.mp reads
      obtain ⟨⟨closing, after⟩, closes, reads⟩ := Option.bind_eq_some_iff.mp reads
      obtain rfl := Option.some.inj reads
      exact (expressed _ _ _ inner (reached.next takes)).closeParen closes
    · obtain ⟨⟨dropped, after⟩, takes, reads⟩ := Option.bind_eq_some_iff.mp reads
      obtain rfl := Option.some.inj reads
      exact (reached.report _ _).next takes

end Cursor

namespace Buffer

variable {buffer : Buffer} {parser : Parser}

/-! ### Sound parsers -/

/-- A parser that a buffer holds has kept to its limit of operators, and has halted at the end of
the line only. -/
structure Sound (buffer : Buffer) (parser : Parser) : Prop extends Holds buffer parser where
  coherent : parser.HaltedAtEnd
  few : parser.operators ≤ maxOperators

namespace Sound

variable (sound : buffer.Sound parser)

include sound

theorem advance : buffer.Sound parser.advance where
  toHolds := sound.toHolds.advance
  coherent := fun halted => by
    rw [Parser.rest_advance, sound.coherent halted, List.tail_nil]
  few := sound.few

theorem report (fault : ParseFault) (span : Span) : buffer.Sound (parser.report fault span) where
  toHolds := sound.toHolds.report fault span
  coherent := fun halted => by
    rw [Parser.halted_report] at halted
    rw [Parser.rest_report, sound.coherent halted]
  few := by simpa using sound.few

theorem halt (limit : ParseFault) : buffer.Sound (parser.halt limit) where
  toHolds := sound.toHolds.halt limit
  coherent := fun _ => rfl
  few := by simpa using sound.few

end Sound

/-! ### Lines -/

/-- The buffer of a line. -/
def ofString (text : String) : Buffer where
  tokens := (Cursor.ofString text).tokens
  reported := (Cursor.ofString text).diagnostics

/-- **The buffer holds the significant tokens of the line, and then the one for its end.** -/
theorem tokens_ofString (text : String) :
    (Cursor.ofString text).tokens = significant text ++ [.endOfFile text.utf8ByteSize] := by
  rw [Cursor.ofString, significant_eq_scan, tokenize_eq_scan, List.filter_append]
  refine congrArg (· ++ _) (List.filter_congr fun token member => ?_)
  have inside : token.kind ≠ .endOfFile := of_decide_eq_false (Token.isEnd_of_mem_scan member)
  rw [Token.isSignificant]
  cases kind : token.kind with
  | endOfFile => exact absurd kind inside
  | _ => rfl

theorem kind_ne_endOfFile_of_mem_significant {text : String} {token : Token}
    (member : token ∈ significant text) : token.kind ≠ .endOfFile := by
  have known := isSignificant_of_mem_significant member
  intro ended
  rw [Token.isSignificant, ended] at known
  cases known

theorem cursor_lineStart (text : String) :
    (ofString text).cursor 0 (lineStart text) = Cursor.ofString text := by
  have start : (ofString text).tokens.length - (lineStart text).pending.length = 0 := by
    rw [ofString, tokens_ofString]
    exact Nat.sub_self _
  rw [cursor, start]
  simp [ofString, Cursor.ofString, lineStart, Parser.ofTokens]

theorem sound_lineStart (text : String) : (ofString text).Sound (lineStart text) where
  behind := by
    rw [ofString, tokens_ofString]
    exact List.suffix_refl _
  proper := fun _ => kind_ne_endOfFile_of_mem_significant
  coherent := fun halted => absurd halted Bool.false_ne_true
  few := Nat.zero_le _

/-! ### Reachable cursors stand where parsers do -/

/-- A cursor stands where a sound parser does. -/
def Stands (buffer : Buffer) (cursor : Cursor) : Prop :=
  ∃ depth parser, cursor = buffer.cursor depth parser ∧ buffer.Sound parser

namespace Stands

variable {before after : Cursor}

/-- A move has one answer only. -/
theorem of_answer {α : Type} {answer : Option (α × Cursor)} {expected given : α} {known : Cursor}
    (stands : buffer.Stands known) (equal : answer = some (expected, known))
    (answered : answer = some (given, after)) : buffer.Stands after := by
  rw [equal] at answered
  obtain ⟨-, rfl⟩ := Prod.mk.inj (Option.some.inj answered)
  exact stands

theorem next {token : Token} (stands : buffer.Stands before)
    (takes : before.next? = some (token, after)) : buffer.Stands after := by
  obtain ⟨depth, parser, rfl, sound⟩ := stands
  have advanced : buffer.Stands (buffer.cursor depth parser.advance) :=
    ⟨depth, _, rfl, sound.advance⟩
  exact advanced.of_answer (next?_cursor sound.toHolds depth) takes

theorem report (stands : buffer.Stands before) (fault : ParseFault) (span : Span) :
    buffer.Stands (before.report fault span) := by
  obtain ⟨depth, parser, rfl, sound⟩ := stands
  exact ⟨depth, _, report_cursor fault span, sound.report fault span⟩

theorem halt (sound : buffer.Sound parser) (depth : Nat) (limit : ParseFault) :
    buffer.Stands (buffer.cursor depth (parser.halt limit)) :=
  ⟨depth, _, rfl, sound.halt limit⟩

theorem enter {entered : Bool} (stands : buffer.Stands before)
    (enters : before.enter? = some (entered, after)) : buffer.Stands after := by
  have here := stands
  obtain ⟨depth, parser, rfl, sound⟩ := stands
  cases running : parser.halted with
  | true => exact here.of_answer (enter?_of_halted _ depth running) enters
  | false =>
    rcases Nat.lt_or_ge depth maxLevels with deeper | deepest
    · have inside : buffer.Stands (buffer.cursor (depth + 1) parser) := ⟨_, _, rfl, sound⟩
      exact inside.of_answer (enter?_of_lt _ running deeper) enters
    · have halts := enter?_of_le sound.toHolds running deepest
      exact (Stands.halt sound depth .tooDeep).of_answer halts enters

theorem link {counted : Bool} (stands : buffer.Stands before)
    (links : before.link? = some (counted, after)) : buffer.Stands after := by
  have here := stands
  obtain ⟨depth, parser, rfl, sound⟩ := stands
  cases running : parser.halted with
  | true => exact here.of_answer (link?_of_halted _ depth running) links
  | false =>
    rcases Nat.lt_or_ge parser.operators maxOperators with few | many
    · have linked : buffer.Sound { parser with operators := parser.operators + 1 } :=
        ⟨⟨sound.behind, sound.proper⟩, sound.coherent, few⟩
      exact of_answer ⟨depth, _, rfl, linked⟩ (link?_of_lt _ depth running few) links
    · have halts := link?_of_le sound.toHolds depth running many
      exact (Stands.halt sound depth .tooLong).of_answer halts links

end Stands

/-- **Every cursor that can be reached stands where a sound parser does.** -/
theorem stands_of_reachable {text : String} {cursor : Cursor}
    (reachable : Cursor.Reachable text cursor) : (ofString text).Stands cursor := by
  induction reachable with
  | start => exact ⟨0, _, (cursor_lineStart text).symm, sound_lineStart text⟩
  | next _ takes ih => exact ih.next takes
  | report _ fault span ih => exact ih.report fault span
  | enter _ enters ih => exact ih.enter enters
  | link _ links ih => exact ih.link links
  | leave _ _ _ ih =>
    obtain ⟨_, parser, rfl, sound⟩ := ih
    exact ⟨_, parser, rfl, sound⟩

end Buffer

end IntCalc
