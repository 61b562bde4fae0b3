/-
**Reports underline what their diagnostics concern.**

In a report on a line the characters of the line stand in the same columns as the blanks and carets
under them. The span of a diagnostic that concerns the line cuts the line into three parts
(`Text.exists_parts`), so both slices that the renderer asks for exist and have the characters of
the first two parts (`Report.exists_underlines`). The carets stand under the middle part, or just
behind the line if that part is empty, since this happens at the end of the line only.

No message, nor the line itself, breaks a line of the report, so the printed text can be divided at
its line feeds into the lines that were meant (`Report.splitOn_render`).
-/
import IntCalc.Proofs.Diagnostics

namespace IntCalc

/-! ### Entries -/

/-- The carets under some characters of a line; if there are none, one for the column behind. -/
def Text.carets : List Char → List Char
  | [] => ['^']
  | marked => List.replicate marked.length '^'

theorem Text.carets_eq_replicate (marked : List Char) :
    carets marked = List.replicate (max marked.length 1) '^' := by
  cases marked with
  | nil => rfl
  | cons first others =>
    have some : max (first :: others).length 1 = (first :: others).length :=
      Nat.max_eq_left (Nat.le_add_left ..)
    rw [carets, some]
    exact fun none => List.cons_ne_nil _ _ none

/-- **The entry of a diagnostic marks a part of the line**: that over which the diagnostic's span
goes, by carets in the columns of its characters. An empty part is at the end of the line. -/
structure Report.Underlines (report : Report) (diagnostic : Diagnostic)
    (front marked back : List Char) : Prop where
  whole : report.line.toList = front ++ marked ++ back
  span : diagnostic.span = ⟨Text.byteLength front, Text.byteLength marked⟩
  before : Text.slice? report.line.toList ⟨0, diagnostic.span.start⟩ = some front
  under : Text.slice? report.line.toList diagnostic.span = some marked
  ended : marked = [] → back = []
  entry : report.entry diagnostic =
    [report.kind ++ ": " ++ diagnostic.message,
      "  | " ++ report.line,
      "  | " ++ String.ofList (List.replicate front.length ' ' ++ Text.carets marked)]

/-- **A span that fits the line is underlined.** -/
theorem Report.exists_underlines {report : Report} {diagnostic : Diagnostic}
    (fits : diagnostic.span.Fits report.line) :
    ∃ front marked back, report.Underlines diagnostic front marked back := by
  obtain ⟨front, marked, back, whole, span⟩ := Text.exists_parts fits.start fits.stop
  have before : Text.slice? report.line.toList ⟨0, diagnostic.span.start⟩ = some front := by
    have inFront := Text.slice?_append [] front (marked ++ back)
    rwa [List.nil_append, ← List.append_assoc, ← whole, Text.byteLength_nil,
      show Text.byteLength front = diagnostic.span.start from (congrArg Span.start span).symm]
      at inFront
  have under : Text.slice? report.line.toList diagnostic.span = some marked := by
    rw [whole, span]
    exact Text.slice?_append front marked back
  refine ⟨front, marked, back, whole, span, before, under, ?_, ?_⟩
  · -- nothing is marked at the end of the line only, so nothing follows there
    rintro rfl
    have atEnd : diagnostic.span.start = report.line.utf8ByteSize := fits.ended (by rw [span]; rfl)
    have size : Text.byteLength front = Text.byteLength front + Text.byteLength back := by
      rwa [span, Text.utf8ByteSize_eq_byteLength, whole, List.append_nil, Text.byteLength_append]
        at atEnd
    exact Text.byteLength_eq_zero_iff.mp (by omega)
  · rw [Report.entry, Report.underline, Report.width, before, Report.width, under,
      Text.carets_eq_replicate]

/-! ### Lines of a report -/

/-- Lines that are ended by line feeds can be read back. -/
theorem Text.splitOn_ended {lines : List (List Char)} (single : ∀ line ∈ lines, '\n' ∉ line) :
    (lines.flatMap (· ++ ['\n'])).splitOn '\n' = lines ++ [[]] := by
  induction lines with
  | nil => rfl
  | cons line others ih =>
    rw [List.flatMap_cons, List.append_assoc, List.singleton_append,
      List.splitOn_append_cons_self_of_not_mem (single line List.mem_cons_self),
      ih fun other later => single other (List.mem_cons_of_mem _ later), List.cons_append]

namespace Report

theorem toList_render (report : Report) :
    report.render.toList = (report.lines.map String.toList).flatMap (· ++ ['\n']) := by
  rw [render, String.toList_join, List.flatMap_map, List.flatMap_map]
  simp only [String.toList_append]
  rfl

theorem single_underline (line : List Char) (span : Span) :
    '\n' ∉ (underline line span).toList := by
  rw [underline, String.toList_ofList, List.mem_append, not_or]
  exact ⟨fun blank => absurd (List.eq_of_mem_replicate blank) (by decide),
    fun caret => absurd (List.eq_of_mem_replicate caret) (by decide)⟩

/-- No line of an entry is broken if the parts that it is put together from are not. -/
theorem single_entry {report : Report} {diagnostic : Diagnostic}
    (single : '\n' ∉ report.line.toList) (announced : '\n' ∉ report.kind.toList)
    (worded : '\n' ∉ diagnostic.message.toList) :
    ∀ line ∈ report.entry diagnostic, '\n' ∉ line.toList := by
  simp only [entry, List.forall_mem_cons, String.toList_append, List.mem_append, not_or]
  exact ⟨⟨⟨announced, by decide⟩, worded⟩, ⟨by decide, single⟩,
    ⟨by decide, single_underline _ _⟩, List.forall_mem_nil _⟩

/-- **The printed report has the lines of its entries** and nothing behind the last line feed. -/
theorem splitOn_render {report : Report} (single : '\n' ∉ report.line.toList)
    (announced : '\n' ∉ report.kind.toList)
    (worded : ∀ diagnostic ∈ report.diagnostics, '\n' ∉ diagnostic.message.toList) :
    report.render.toList.splitOn '\n' =
      (report.diagnostics.flatMap report.entry).map String.toList ++ [[]] := by
  rw [toList_render]
  refine Text.splitOn_ended fun printed member => ?_
  obtain ⟨line, listed, rfl⟩ := List.mem_map.mp member
  obtain ⟨diagnostic, given, inside⟩ := List.mem_flatMap.mp listed
  exact single_entry single announced (worded diagnostic given) line inside

end Report

/-! ### Reports on a line -/

/-- **A report on a line underlines what its diagnostics concern.** Whatever concerns a line takes
whole characters of it, or stands at its end. So a report with such diagnostics prints one entry of
three lines for each, and marks in it the characters over which the diagnostic goes. -/
theorem report_underlines {text : String} (single : '\n' ∉ text.toList) :
    (∀ diagnostic : Diagnostic, diagnostic.Concerns text → diagnostic.span.Fits text) ∧
    ∀ report : Report, report.line = text → '\n' ∉ report.kind.toList →
      (∀ diagnostic ∈ report.diagnostics, diagnostic.Concerns text) →
        report.render.toList.splitOn '\n' =
          (report.diagnostics.flatMap report.entry).map String.toList ++ [[]] ∧
        ∀ diagnostic ∈ report.diagnostics,
          ∃ front marked back, report.Underlines diagnostic front marked back := by
  refine ⟨fun diagnostic concerns => concerns.fits, ?_⟩
  rintro report rfl announced given
  refine ⟨Report.splitOn_render single announced fun diagnostic member => ?_,
    fun diagnostic member => ?_⟩
  · exact (given diagnostic member).single single
  · exact Report.exists_underlines (given diagnostic member).fits

/-- A foreign letter of two bytes, and an open parenthesis that the line ends in. -/
theorem report_underlines_accentedLetter :
    let report := (Failure.malformed (parse "é(7").diagnostics).report "é(7"
    report.lines =
        ["syntax error: unexpected character 'é' at position 0", "  | é(7", "  | ^",
          "syntax error: expected ')', got EndOfFile", "  | é(7", "  |    ^"] ∧
      report.render.toList.splitOn '\n' =
        (report.diagnostics.flatMap report.entry).map String.toList ++ [[]] ∧
      ∀ diagnostic ∈ report.diagnostics,
        ∃ front marked back, report.Underlines diagnostic front marked back :=
  ⟨by decide +kernel, (report_underlines (by decide)).2
    ((Failure.malformed (parse "é(7").diagnostics).report "é(7") rfl (by decide)
    fun _ listed => .malformed listed⟩

end IntCalc
