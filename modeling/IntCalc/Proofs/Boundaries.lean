/-
**Positions between the characters of a text.**

A position counts bytes, so it may lie inside a character. It is a boundary if the bytes before it
are those of whole characters (`Text.IsBoundary`). Two boundaries cut a text into three parts, and
the span between them takes the middle one (`Text.exists_parts`).

The tokens of a text are parts of it themselves (`Token.exists_parts_of_mem_scan`), so all of them
start and stop at boundaries. A span that takes whole characters of a line, and none at its end only,
fits the line (`Span.Fits`); that is so for the tokens of the line, for its end, and for what goes
from one of these to another.
-/
import IntCalc.Proofs.Scan

namespace IntCalc

namespace Text

/-! ### Boundaries -/

/-- A position lies between two characters of a text or at one of its ends. -/
def IsBoundary (text : List Char) (position : Nat) : Prop :=
  ∃ front back, text = front ++ back ∧ byteLength front = position

theorem isBoundary_byteLength (text : List Char) : IsBoundary text (byteLength text) :=
  ⟨text, [], (List.append_nil _).symm, rfl⟩

/-- The ends of a part of a text are boundaries. -/
theorem isBoundary_of_parts {text front middle back : List Char}
    (whole : text = front ++ middle ++ back) :
    IsBoundary text (byteLength front) ∧ IsBoundary text (byteLength front + byteLength middle) := by
  refine ⟨⟨front, middle ++ back, ?_, rfl⟩, ⟨front ++ middle, back, whole, byteLength_append ..⟩⟩
  rw [whole, List.append_assoc]

/-- **Two boundaries cut a text into three parts**, and what lies between them is the middle one. -/
theorem exists_parts {text : List Char} {span : Span} (start : IsBoundary text span.start)
    (stop : IsBoundary text span.stop) :
    ∃ front middle back, text = front ++ middle ++ back ∧
      span = ⟨byteLength front, byteLength middle⟩ := by
  obtain ⟨front, others, whole, startSize⟩ := start
  obtain ⟨longer, back, whole', stopSize⟩ := stop
  have ordered : span.start ≤ span.stop := span.start_le_stop
  rcases List.append_eq_append_iff.mp (whole.symm.trans whole') with
    ⟨middle, rfl, -⟩ | ⟨middle, rfl, -⟩
  · refine ⟨front, middle, back, whole', Span.ext startSize.symm ?_⟩
    show span.length = byteLength middle
    rw [byteLength_append, startSize, Span.stop] at stopSize
    omega
  · -- the front that goes on to the later boundary is not shorter, so the two are the same
    rw [byteLength_append] at startSize
    have nothing : middle = [] := byteLength_eq_zero_iff.mp (by omega)
    subst nothing
    refine ⟨longer, [], back, by simpa using whole', Span.ext ?_ ?_⟩
    · simpa using startSize.symm
    · simp only [Span.stop, byteLength_nil] at *
      omega

end Text

namespace Token

/-! ### Tokens -/

/-- **A token of a text is a part of it**, and stands where that part does. -/
theorem exists_parts_of_mem_scan {position : Nat} {text : List Char} {token : Token}
    (member : token ∈ scan position text) :
    ∃ front back, text = front ++ token.text.toList ++ back ∧
      token.position = position + Text.byteLength front := by
  fun_induction scan position text with
  | case1 position => cases member
  | case2 position first rest ih =>
    have lexeme : (opened position first rest).text.toList =
        first :: rest.takeWhile (Kind.ofChar first).continues := String.toList_ofList
    rcases List.mem_cons.mp member with rfl | later
    · refine ⟨[], rest.dropWhile (Kind.ofChar first).continues, ?_, rfl⟩
      rw [lexeme, List.nil_append, List.cons_append, List.takeWhile_append_dropWhile]
    · obtain ⟨front, back, whole, place⟩ := ih later
      refine ⟨first :: rest.takeWhile (Kind.ofChar first).continues ++ front, back, ?_, ?_⟩
      · rw [List.append_assoc, List.append_assoc, ← List.append_assoc front, ← whole,
          List.cons_append, List.takeWhile_append_dropWhile]
      · rw [place, stop_opened, Text.byteLength_append, Nat.add_assoc]

/-- A token of a line starts and stops between characters of the line. -/
theorem isBoundary_of_mem_scan {text : List Char} {token : Token} (member : token ∈ scan 0 text) :
    Text.IsBoundary text token.position ∧ Text.IsBoundary text token.span.stop := by
  obtain ⟨front, back, whole, place⟩ := exists_parts_of_mem_scan member
  rw [Span.stop, start_span, place, Nat.zero_add, span, Text.utf8ByteSize_eq_byteLength]
  exact Text.isBoundary_of_parts whole

end Token

/-! ### Spans that fit a line -/

/-- **A span takes whole characters of a line**, and none at its end only. -/
structure Span.Fits (span : Span) (text : String) : Prop where
  start : Text.IsBoundary text.toList span.start
  stop : Text.IsBoundary text.toList span.stop
  stop_le : span.stop ≤ text.utf8ByteSize
  ended : span.length = 0 → span.start = text.utf8ByteSize

namespace Span.Fits

variable {text : String}

theorem endOfLine (text : String) : (Span.empty text.utf8ByteSize).Fits text := by
  have boundary : Text.IsBoundary text.toList text.utf8ByteSize := by
    rw [Text.utf8ByteSize_eq_byteLength]
    exact Text.isBoundary_byteLength _
  exact ⟨boundary, boundary, Nat.le_refl _, fun _ => rfl⟩

/-- The span of a token of a line fits the line. -/
theorem of_mem_scan {token : Token} (member : token ∈ Token.scan 0 text.toList) :
    token.span.Fits text := by
  obtain ⟨start, stop⟩ := Token.isBoundary_of_mem_scan member
  refine ⟨start, stop, ?_, fun none => absurd none ?_⟩
  · have inside := Token.stop_le_of_mem_scan member
    rwa [Nat.zero_add, ← Text.utf8ByteSize_eq_byteLength] at inside
  · show token.text.utf8ByteSize ≠ 0
    rw [Ne, String.utf8ByteSize_eq_zero_iff]
    exact Token.text_ne_of_mem_scan member

theorem of_mem_significant {token : Token} (member : token ∈ significant text) :
    token.span.Fits text := by
  rw [significant_eq_scan] at member
  exact of_mem_scan (List.mem_filter.mp member).1

theorem through {first last : Span} (fits : first.Fits text) (fits' : last.Fits text) :
    (first.through last).Fits text := by
  refine ⟨fits.start, ?_, ?_, fun none => fits.ended ?_⟩
  · rw [stop_through]
    rcases Nat.le_total last.stop first.stop with earlier | later
    · rw [Nat.max_eq_right earlier]
      exact fits.stop
    · rw [Nat.max_eq_left later]
      exact fits'.stop
  · rw [stop_through]
    exact Nat.max_le.mpr ⟨fits'.stop_le, fits.stop_le⟩
  · simp only [Span.through, Span.stop] at none
    omega

end Span.Fits

end IntCalc
