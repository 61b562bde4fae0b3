/-
**A session remembers its switches and nothing else.**

A session on some lines and whatever comes behind them writes what it writes for the lines, and then
what a new session on the rest would write, with the switches as the lines have left them: each is
flipped once for every line that is its command (`Echo.after`). This holds for any rest, be it text or
not. A blank line ends the session, so nothing behind it matters (`interact_resumes`).

* `reply_encode`: a line of text reaches the session as it is;
* `exists_reply`: a line that is not blank lets the session go on, with the switches that it heeds;
* `interact_of_proceed`: what is written for one line stands in front of everything later;
* `exists_followedBy`: by induction on the lines, so does what is written for all of them.
-/
import IntCalc.Proofs.Encoding
import IntCalc.Shell.Session
import Mathlib.Data.List.DropRight
import Mathlib.Logic.Function.Iterate

namespace IntCalc

/-! ### The ends of lines -/

namespace Text

theorem isBlank_of_isLineEnd {char : Char} (lineEnd : isLineEnd char = true) :
    isBlank char = true := by
  simp only [isLineEnd, Bool.or_eq_true, decide_eq_true_eq] at lineEnd
  rcases lineEnd with rfl | rfl <;> decide

theorem exists_append_dropLineEnd (text : List Char) :
    ∃ tail, (∀ char ∈ tail, isBlank char = true) ∧ dropLineEnd text ++ tail = text :=
  ⟨text.rtakeWhile isLineEnd, fun _ member => isBlank_of_isLineEnd (List.mem_rtakeWhile_imp member),
    List.rdropWhile_append_rtakeWhile ..⟩

theorem trim_append {tail : List Char} (blank : ∀ char ∈ tail, isBlank char = true)
    (text : List Char) : trim (text ++ tail) = trim text := by
  rw [trim, trim, List.dropWhile_append]
  split
  · rename_i empty
    rw [List.isEmpty_iff.mp empty, List.dropWhile_eq_nil_iff.mpr blank]
  · exact dropEndWhile_append blank _

/-- The end of a line is trimmed off with the other blanks. -/
theorem trim_dropLineEnd (text : List Char) : trim (dropLineEnd text) = trim text := by
  obtain ⟨tail, blank, whole⟩ := exists_append_dropLineEnd text
  rw [← trim_append blank, whole]

theorem all_isBlank_dropLineEnd (text : List Char) :
    (dropLineEnd text).all isBlank = text.all isBlank := by
  obtain ⟨tail, blank, whole⟩ := exists_append_dropLineEnd text
  have inside : tail.all isBlank = true := List.all_eq_true.mpr blank
  calc (dropLineEnd text).all isBlank
      = (dropLineEnd text ++ tail).all isBlank := by rw [List.all_append, inside, Bool.and_true]
    _ = text.all isBlank := by rw [whole]

end Text

namespace Shell

/-! ### Commands -/

/-- The word of a command. -/
def Command.word : Command → String
  | tokens => "#tokens"
  | tree => "#tree"

/-- Whether a line is a command: it is its word but for blanks around it and for capitals. -/
def Command.isGivenBy (command : Command) (line : String) : Bool :=
  (Text.trim line.toList).map Char.toLower == command.word.toList

theorem Command.ofText?_eq_some_iff {text : List Char} {command : Command} :
    ofText? text = some command ↔ text.map Char.toLower = command.word.toList := by
  have word : ∀ other : Command, String.ofList (text.map Char.toLower) = other.word ↔
      text.map Char.toLower = other.word.toList := by
    intro other
    rw [← String.toList_inj, String.toList_ofList]
  have apart : Command.tree.word.toList ≠ Command.tokens.word.toList := by decide
  rw [← word, ofText?]
  cases command with
  | tree =>
    show _ ↔ String.ofList (text.map Char.toLower) = "#tree"
    by_cases isTree : String.ofList (text.map Char.toLower) = "#tree"
    · simp [isTree]
    · simp only [if_neg isTree]
      split <;> simp [isTree]
  | tokens =>
    show _ ↔ String.ofList (text.map Char.toLower) = "#tokens"
    by_cases isTree : String.ofList (text.map Char.toLower) = "#tree"
    · simp [isTree]
    · simp [isTree]

theorem Command.isGivenBy_iff {command : Command} {line : String} :
    command.isGivenBy line = true ↔ ofText? (Text.trim line.toList) = some command := by
  rw [isGivenBy, beq_iff_eq, ofText?_eq_some_iff]

/-! ### Replies to lines -/

/-- A line that a session goes on after. -/
structure GoesOn (line : String) : Prop where
  single : '\n' ∉ line.toList
  notBlank : ∃ char ∈ line.toList, Text.isBlank char = false

/-- A line that ends a session. -/
structure Blank (line : String) : Prop where
  single : '\n' ∉ line.toList
  blank : ∀ char ∈ line.toList, Text.isBlank char = true

/-- The switches after a line: a command flips its own. -/
def Echo.heed (echo : Echo) (line : String) : Echo :=
  match Command.ofText? (Text.trim line.toList) with
  | some command => echo.flip command
  | none => echo

/-- **A line of text reaches the session as it is.** -/
theorem reply_encode (echo : Echo) (text : List Char) :
    reply echo (Text.encode text) = replyToText echo text := by
  rw [reply, Text.fromUTF8?_encode]
  show replyToText echo (String.ofList text).toList = replyToText echo text
  rw [String.toList_ofList]

theorem replyToText_of_blank {text : List Char} (blank : ∀ char ∈ text, Text.isBlank char = true)
    (echo : Echo) : replyToText echo text = .finish "" 0 := by
  have whole : (Text.dropLineEnd text).all Text.isBlank = true := by
    rw [Text.all_isBlank_dropLineEnd]
    exact List.all_eq_true.mpr blank
  rw [replyToText, if_pos whole]

/-- A blank line is answered with the end of the session. -/
theorem reply_of_blank {line : String} (blank : Blank line) (echo : Echo) :
    reply echo (Text.encode (line.toList ++ ['\n'])) = .finish "" 0 := by
  rw [reply_encode]
  refine replyToText_of_blank (fun char member => ?_) echo
  rcases List.mem_append.mp member with inside | last
  · exact blank.blank char inside
  · rw [List.mem_singleton.mp last]
    decide

/-- The reply to a line that is not blank, whatever blanks end it. -/
theorem replyToText_append {line tail : List Char}
    (notBlank : ∃ char ∈ line, Text.isBlank char = false)
    (lineEnd : ∀ char ∈ tail, Text.isLineEnd char = true) (echo : Echo) :
    replyToText echo (line ++ tail) =
      match Command.ofText? (Text.trim line) with
      | some command =>
        .proceed (echo.flip command) ⟨String.ofList (Text.trim line) ++
          (if (echo.flip command).isOn command then " on\n" else " off\n"), ""⟩
      | none => .proceed echo (lineOutput echo (String.ofList (Text.dropLineEnd line))) := by
  have dropped : Text.dropLineEnd (line ++ tail) = Text.dropLineEnd line :=
    Text.dropEndWhile_append lineEnd line
  have seen : ¬ (Text.dropLineEnd line).all Text.isBlank = true := by
    obtain ⟨char, inside, notBlank⟩ := notBlank
    rw [Text.all_isBlank_dropLineEnd, List.all_eq_true]
    intro blank
    rw [blank char inside] at notBlank
    cases notBlank
  cases found : Command.ofText? (Text.trim line) with
  | none => simp only [replyToText, dropped, if_neg seen, Text.trim_dropLineEnd, found]
  | some command => simp only [replyToText, dropped, if_neg seen, Text.trim_dropLineEnd, found]

/-- **After a line that is not blank the session goes on**, with the switches that heed the line. -/
theorem exists_reply {line : String} (goesOn : GoesOn line) (echo : Echo) :
    ∃ output, reply echo (Text.encode (line.toList ++ ['\n'])) =
      .proceed (echo.heed line) output := by
  have feed : ∀ char ∈ ['\n'], Text.isLineEnd char = true := List.forall_mem_singleton.mpr rfl
  rw [reply_encode, replyToText_append goesOn.notBlank feed, Echo.heed]
  cases Command.ofText? (Text.trim line.toList) with
  | some command => exact ⟨_, rfl⟩
  | none => exact ⟨_, rfl⟩

/-! ### One line and what comes later -/

/-- What has been written, in front of a later transcript. -/
def Output.followedBy (said : Output) (later : Transcript) : Transcript :=
  ⟨⟨said.stdout ++ later.stdout, said.stderr ++ later.stderr⟩, later.exit⟩

/-- What is written for one line comes behind a prompt and in front of everything later. -/
theorem session_of_proceed {echo echo' : Echo} {bytes : List UInt8} {output : Output}
    (replied : reply echo bytes = .proceed echo' output) (lines : List (List UInt8)) :
    session echo (bytes :: lines) =
      Output.followedBy ⟨prompt ++ output.stdout, output.stderr⟩ (session echo' lines) := by
  simp only [session, replied, Output.followedBy]

theorem interact_of_proceed {echo echo' : Echo} {line : List Char} {output : Output}
    (single : '\n' ∉ line)
    (replied : reply echo (Text.encode (line ++ ['\n'])) = .proceed echo' output)
    (rest : List UInt8) :
    interact echo (Text.encode (line ++ ['\n']) ++ rest) =
      Output.followedBy ⟨prompt ++ output.stdout, output.stderr⟩ (interact echo' rest) := by
  rw [interact, Text.lines_encode_append single, session_of_proceed replied, interact]

/-! ### Many lines -/

/-- A stream of lines, each with its end. -/
def typed (lines : List String) : List UInt8 :=
  lines.flatMap fun line => Text.encode (line.toList ++ ['\n'])

/-- The switches after some lines: each is flipped once for every line that is its command. -/
def Echo.after (echo : Echo) (lines : List String) : Echo :=
  (fun echo => echo.flip .tree)^[lines.countP Command.tree.isGivenBy]
    ((fun echo => echo.flip .tokens)^[lines.countP Command.tokens.isGivenBy] echo)

theorem Echo.flip_comm :
    Function.Commute (fun echo : Echo => echo.flip .tree) (fun echo => echo.flip .tokens) :=
  fun _ => rfl

/-- The first of some lines is heeded first. -/
theorem Echo.after_cons (echo : Echo) (line : String) (lines : List String) :
    echo.after (line :: lines) = (echo.heed line).after lines := by
  have given : ∀ command : Command, command.isGivenBy line = true ↔
      Command.ofText? (Text.trim line.toList) = some command := fun _ => Command.isGivenBy_iff
  rw [after, after, heed, List.countP_cons, List.countP_cons]
  cases read : Command.ofText? (Text.trim line.toList) with
  | none => simp [given, read]
  | some command =>
    cases command with
    | tokens => simp [given, read]
    | tree =>
      simp only [given, read, if_true, Function.iterate_succ_apply]
      simp [(Echo.flip_comm.iterate_right _).eq]

/-- **What is written for some lines stands in front of what comes later**, and that begins with the
switches as the lines leave them. -/
theorem exists_followedBy {lines : List String} (goesOn : ∀ line ∈ lines, GoesOn line)
    (echo : Echo) :
    ∃ said : Output, ∀ rest, interact echo (typed lines ++ rest) =
      said.followedBy (interact (echo.after lines) rest) := by
  induction lines generalizing echo with
  | nil =>
    refine ⟨⟨"", ""⟩, fun rest => ?_⟩
    simp [typed, Output.followedBy, Echo.after]
  | cons line lines ih =>
    obtain ⟨here, others⟩ := List.forall_mem_cons.mp goesOn
    obtain ⟨output, replied⟩ := exists_reply here echo
    obtain ⟨said, later⟩ := ih others (echo.heed line)
    refine ⟨⟨prompt ++ output.stdout ++ said.stdout, output.stderr ++ said.stderr⟩, fun rest => ?_⟩
    have first := interact_of_proceed here.single replied (typed lines ++ rest)
    rw [typed, List.flatMap_cons, List.append_assoc, Echo.after_cons]
    rw [← typed, first, later]
    simp only [Output.followedBy, String.append_assoc]

/-! ### The end of a session -/

/-- What follows a line that ends every session is never read. -/
theorem session_append_of_finish {line : List UInt8} {stderr : String} {exit : UInt32}
    (finishes : ∀ echo, reply echo line = .finish stderr exit) (echo : Echo)
    (earlier later : List (List UInt8)) :
    session echo (earlier ++ line :: later) = session echo (earlier ++ [line]) := by
  induction earlier generalizing echo with
  | nil =>
    show session echo (line :: later) = session echo [line]
    simp only [session, finishes echo]
  | cons first earlier ih =>
    simp only [List.cons_append, session]
    cases reply echo first with
    | finish stderr exit => rfl
    | proceed echo' output => simp only [ih echo']

/-- Nothing behind a blank line has any effect. -/
theorem interact_append_of_blank {front : List UInt8} (complete : Text.Complete front)
    {blank : String} (isBlank : Blank blank) (echo : Echo) (rest : List UInt8) :
    interact echo (front ++ Text.encode (blank.toList ++ ['\n']) ++ rest) =
      interact echo (front ++ Text.encode (blank.toList ++ ['\n'])) := by
  have alone := Text.lines_encode_append isBlank.single []
  rw [List.append_nil] at alone
  rw [interact, interact, List.append_assoc, Text.lines_append_of_complete complete,
    Text.lines_append_of_complete complete, Text.lines_encode_append isBlank.single, alone]
  exact session_append_of_finish (reply_of_blank isBlank) echo (Text.lines front) _

/-! ### Whole sessions -/

/-- **A session goes on as a new one would**, with the switches as the lines so far have left them;
and behind a blank line nothing matters. -/
theorem interact_resumes (echo : Echo) :
    (∀ lines : List String, (∀ line ∈ lines, GoesOn line) →
      ∃ said : Output, interact echo (typed lines) = ⟨⟨said.stdout ++ prompt, said.stderr⟩, 0⟩ ∧
        ∀ rest, interact echo (typed lines ++ rest) =
          ⟨⟨said.stdout ++ (interact (echo.after lines) rest).stdout,
            said.stderr ++ (interact (echo.after lines) rest).stderr⟩,
            (interact (echo.after lines) rest).exit⟩) ∧
      ∀ (front : List UInt8) (blank : String), Text.Complete front → Blank blank →
        ∀ rest, interact echo (front ++ Text.encode (blank.toList ++ ['\n']) ++ rest) =
          interact echo (front ++ Text.encode (blank.toList ++ ['\n'])) := by
  constructor
  · intro lines goesOn
    obtain ⟨said, later⟩ := exists_followedBy goesOn echo
    refine ⟨said, ?_, later⟩
    have alone := later []
    rw [List.append_nil] at alone
    rw [alone]
    simp [Output.followedBy, interact, Text.lines, session]
  · intro front blank complete isBlank rest
    exact interact_append_of_blank complete isBlank echo rest

/-- A command stands between lines that fail; behind them come a line and a byte that is no text. -/
theorem interact_resumes_toggledTree :
    (∀ line ∈ ["2 -", "\t#Tree ", "1 / 0"], GoesOn line) ∧ Text.Complete [255, 10] ∧ Blank " \t" ∧
      (∃ said : Output, interact {} (typed ["2 -", "\t#Tree ", "1 / 0"] ++ [51, 10, 255]) =
        ⟨⟨said.stdout ++ "> └──NumberExpression\n    └──Number 3\n3\n> ",
          said.stderr ++ unreadable⟩, 1⟩) ∧
      interact {} ([255, 10] ++ Text.encode [' ', '\t', '\n'] ++ [255]) =
        interact {} ([255, 10] ++ Text.encode [' ', '\t', '\n']) := by
  have goesOn : ∀ line ∈ ["2 -", "\t#Tree ", "1 / 0"], GoesOn line := by
    simp only [List.forall_mem_cons, List.not_mem_nil, false_imp_iff, implies_true, and_true]
    exact ⟨⟨by decide, '2', by decide, by decide⟩, ⟨by decide, '#', by decide, by decide⟩,
      ⟨by decide, '1', by decide, by decide⟩⟩
  have complete : Text.Complete [255, 10] := .inr rfl
  have blank : Blank " \t" := ⟨by decide, List.all_eq_true.mp (by decide)⟩
  have flipped : Echo.after {} ["2 -", "\t#Tree ", "1 / 0"] = { tree := true } := by decide +kernel
  have later : interact { tree := true } [51, 10, 255] =
      ⟨⟨"> └──NumberExpression\n    └──Number 3\n3\n> ", unreadable⟩, 1⟩ := by decide +kernel
  obtain ⟨said, -, resumes⟩ := (interact_resumes {}).1 _ goesOn
  have resumed := resumes [51, 10, 255]
  rw [flipped, later] at resumed
  exact ⟨goesOn, complete, blank, ⟨said, resumed⟩,
    (interact_resumes {}).2 [255, 10] " \t" complete blank [255]⟩

end Shell

end IntCalc
