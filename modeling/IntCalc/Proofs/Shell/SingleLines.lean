/-
**A line is answered alike in a session and on the command line, if its arguments can be read.**

What a session writes between one prompt and the next is what a run for the same line with the same
switches has written, however the line ends on the standard input; and both write what the answer to
the line says: its value, or the report of its failure (`Agrees`). Only the last words on a failure
differ, and the exit status.

That is so for every line that is joined to `-e`, and for one behind a bare `-e` unless it looks
like an option, as `-5 + 3` does: then the run is refused (`interact_agrees`). Nothing is assumed
about the reader of the command line but that it is conventional.

* `reply_of_answered`: the end of the line is dropped and nothing else, so the session answers the
  line itself;
* `writes_oneShot`: what is written for the line follows its answer;
* `Reader.Conventional.run_missing`: a line that looks like an option is refused behind a bare `-e`.
-/
import IntCalc.Proofs.Shell.CommandLine
import IntCalc.Proofs.Shell.Sessions

namespace IntCalc.Shell

/-! ### Lines in a session -/

/-- A line that a session answers: no end of a line is in it, and it is no command. -/
structure Answered (line : String) : Prop extends GoesOn line where
  unreturned : line.toList.getLast? ≠ some '\r'
  noCommand : ∀ command : Command, command.isGivenBy line = false

/-- How a line may end on a stream, and what may come behind it. -/
inductive LineEnd : List Char → List UInt8 → Prop
  | feed (rest : List UInt8) : LineEnd ['\n'] rest
  | returnFeed (rest : List UInt8) : LineEnd ['\r', '\n'] rest
  | endOfInput : LineEnd [] []

/-- Nothing of an answered line is dropped with its end. -/
theorem Answered.dropLineEnd_eq {line : String} (answered : Answered line) :
    Text.dropLineEnd line.toList = line.toList := by
  refine List.rdropWhile_eq_self_iff.mpr fun nonempty dropped => ?_
  have isLast := List.getLast?_eq_some_getLast nonempty
  simp only [Text.isLineEnd, Bool.or_eq_true, decide_eq_true_eq] at dropped
  rcases dropped with feed | back
  · exact answered.single (feed ▸ List.getLast_mem nonempty)
  · exact answered.unreturned (isLast.trans (congrArg some back))

/-- **A session answers the line itself**, whatever ends it. -/
theorem reply_of_answered {line : String} (answered : Answered line) {ending : List Char}
    (lineEnd : ∀ char ∈ ending, Text.isLineEnd char = true) (echo : Echo) :
    reply echo (Text.encode (line.toList ++ ending)) = .proceed echo (lineOutput echo line) := by
  have noCommand : Command.ofText? (Text.trim line.toList) = none := by
    refine Option.eq_none_iff_forall_ne_some.mpr fun command given => ?_
    have isGiven := Command.isGivenBy_iff.mpr given
    rw [answered.noCommand command] at isGiven
    cases isGiven
  rw [reply_encode, replyToText_append answered.notBlank lineEnd, noCommand,
    answered.dropLineEnd_eq, String.ofList_toList]

theorem Answered.toList_ne_nil {line : String} (answered : Answered line) : line.toList ≠ [] := by
  obtain ⟨char, inside, -⟩ := answered.notBlank
  exact List.ne_nil_of_mem inside

/-- What a session writes for a line comes behind a prompt and in front of everything later. -/
theorem interact_of_answered {line : String} (answered : Answered line) {ending : List Char}
    {rest : List UInt8} (ends : LineEnd ending rest) (echo : Echo) :
    interact echo (Text.encode (line.toList ++ ending) ++ rest) =
      Output.followedBy ⟨prompt ++ (lineOutput echo line).stdout, (lineOutput echo line).stderr⟩
        (interact echo rest) := by
  cases ends with
  | feed rest =>
    exact interact_of_proceed answered.single
      (reply_of_answered answered (List.forall_mem_singleton.mpr rfl) echo) rest
  | returnFeed rest =>
    have single : '\n' ∉ line.toList ++ ['\r'] := by
      intro member
      rcases List.mem_append.mp member with inside | last
      · exact answered.single inside
      · exact absurd (List.mem_singleton.mp last) (by decide)
    have lineEnd : ∀ char ∈ ['\r', '\n'], Text.isLineEnd char = true :=
      List.all_eq_true.mp (by decide)
    have replied := reply_of_answered answered lineEnd echo
    rw [List.append_cons] at replied ⊢
    exact interact_of_proceed single replied rest
  | endOfInput =>
    have replied := reply_of_answered answered (List.forall_mem_nil _) echo
    rw [List.append_nil] at replied ⊢
    rw [List.append_nil, interact, Text.lines_encode answered.single answered.toList_ne_nil]
    exact session_of_proceed replied []

/-! ### Lines on the command line -/

namespace Reader.Conventional

variable {reader : Reader} (conventional : reader.Conventional) {echo : Echo}
  {front back : List Command} (switches : (front ++ back).Perm echo.commands)
  {line : String} (input : List UInt8)

include conventional switches

theorem run_joined : reader.run (amid front ["-e=" ++ line] back) input = oneShot echo line := by
  simp only [Reader.run, conventional.joined switches line, Options.transcript]

theorem run_apart (value : looksLikeOption line = false) :
    reader.run (amid front ["-e", line] back) input = oneShot echo line := by
  simp only [Reader.run, conventional.apart switches value, Options.transcript]

/-- A line that looks like an option is not even read. -/
theorem run_missing (hyphen : looksLikeOption line = true) :
    ∃ message, reader.run (amid front ["-e", line] back) input = ⟨⟨"", message⟩, 2⟩ := by
  obtain ⟨message, refused⟩ := conventional.missing switches hyphen
  exact ⟨message, by simp only [Reader.run, refused]⟩

end Reader.Conventional

/-! ### What the answer says -/

/-- What is written for a line on the command line, and which report is in it, by its answer. -/
def Writes (line reported : String) (single : Transcript) : Answer → Prop
  | .ok value =>
    single.exit = 0 ∧ single.stderr = "" ∧ reported = "" ∧
      ∃ shown, single.stdout = shown ++ value.decimal ++ "\n"
  | .error (.malformed diagnostics) =>
    single.exit = 1 ∧ single.stderr = reported ++ "Error: Expression did not evaluate\n" ∧
      diagnostics = (parse line).diagnostics ∧
      reported = Report.render { line, diagnostics, kind := "syntax error" }
  | .error (.runtime fault) =>
    single.exit = 1 ∧ single.stderr = reported ++ "Error: Expression did not evaluate\n" ∧
      reported = Report.render
        { line, diagnostics := [⟨fault.value.message, fault.span⟩], kind := "runtime error" }

theorem diagnostics_of_malformed {line : String} {diagnostics : List Diagnostic}
    (answered : answer line = .error (.malformed diagnostics)) :
    diagnostics = (parse line).diagnostics := by
  rw [answer, ParsedLine.answer] at answered
  split at answered
  · cases evaluated : (parse line).root.evaluate with
    | ok value => simp [evaluated, Except.mapError] at answered
    | error fault => simp [evaluated, Except.mapError] at answered
  · cases answered
    rfl

/-- **What is written for a line follows its answer.** -/
theorem writes_oneShot (echo : Echo) (line : String) :
    Writes line (lineOutput echo line).stderr (oneShot echo line) (answer line) := by
  have shown : (parse line).answer = answer line := rfl
  cases answered : answer line with
  | ok value =>
    refine ⟨by simp only [oneShot, answered], ?_, ?_, preamble echo line (parse line), ?_⟩
    · simp only [oneShot, answered, lineOutput, shown, answerOutput]
    · simp only [lineOutput, shown, answered, answerOutput]
    · simp only [oneShot, answered, lineOutput, shown, answerOutput, String.append_assoc]
  | error failure =>
    cases failure with
    | malformed diagnostics =>
      refine ⟨by simp only [oneShot, answered], by simp only [oneShot, answered, notEvaluated],
        diagnostics_of_malformed answered, ?_⟩
      simp only [lineOutput, shown, answered, answerOutput]
      rfl
    | runtime fault =>
      refine ⟨by simp only [oneShot, answered], by simp only [oneShot, answered, notEvaluated], ?_⟩
      simp only [lineOutput, shown, answered, answerOutput]
      rfl

theorem stdout_oneShot (echo : Echo) (line : String) :
    (oneShot echo line).stdout = (lineOutput echo line).stdout := by
  unfold oneShot
  split <;> rfl

/-! ### Both together -/

/-- What a session writes between its prompts for a line is what a single run has written, but for
the last words of the run; and the run has written what the answer to the line says. -/
def Agrees (echo : Echo) (line : String) (single : Transcript) : Prop :=
  ∃ reported : String,
    (∀ ending rest, LineEnd ending rest →
      interact echo (Text.encode (line.toList ++ ending) ++ rest) =
        ⟨⟨"> " ++ single.stdout ++ (interact echo rest).stdout,
          reported ++ (interact echo rest).stderr⟩, (interact echo rest).exit⟩) ∧
      (single.exit = 0 ↔ ∃ value, answer line = .ok value) ∧
      Writes line reported single (answer line)

/-- The exit status tells whether there is a value. -/
theorem Writes.value_or_failure {line reported : String} {single : Transcript} {answer : Answer}
    (written : Writes line reported single answer) :
    single.exit = 0 ∧ (∃ value, answer = .ok value) ∨
      single.exit = 1 ∧ ∃ failure, answer = .error failure := by
  match answer with
  | .ok value => exact .inl ⟨written.1, value, rfl⟩
  | .error (.malformed diagnostics) => exact .inr ⟨written.1, _, rfl⟩
  | .error (.runtime fault) => exact .inr ⟨written.1, _, rfl⟩

theorem Writes.exit_eq_zero_iff {line reported : String} {single : Transcript} {answer : Answer}
    (written : Writes line reported single answer) :
    single.exit = 0 ↔ ∃ value, answer = .ok value := by
  rcases written.value_or_failure with ⟨exit, isOk⟩ | ⟨exit, failure, failed⟩
  · exact ⟨fun _ => isOk, fun _ => exit⟩
  · rw [exit, failed]
    simp

theorem Agrees.exit_ne_two {echo : Echo} {line : String} {single : Transcript}
    (agrees : Agrees echo line single) : single.exit ≠ 2 := by
  obtain ⟨reported, -, -, written⟩ := agrees
  rcases written.value_or_failure with ⟨exit, -⟩ | ⟨exit, -⟩
  · rw [exit]
    decide
  · rw [exit]
    decide

/-- **A session agrees with the answer to a line by itself.** -/
theorem agrees_oneShot (echo : Echo) {line : String} (answered : Answered line) :
    Agrees echo line (oneShot echo line) := by
  have written := writes_oneShot echo line
  refine ⟨(lineOutput echo line).stderr, ?_, written.exit_eq_zero_iff, written⟩
  intro ending rest ends
  rw [interact_of_answered answered ends echo, stdout_oneShot]
  rfl

/-- **A session and the command line agree on a line**, and both write what its answer says, if the
line is joined to `-e` or does not begin with a hyphen and more; else the run is refused. -/
theorem interact_agrees {reader : Reader} (conventional : reader.Conventional) {echo : Echo}
    {front back : List Command} (switches : (front ++ back).Perm echo.commands)
    {line : String} (answered : Answered line) (input : List UInt8) :
    Agrees echo line (reader.run (amid front ["-e=" ++ line] back) input) ∧
      (Agrees echo line (reader.run (amid front ["-e", line] back) input) ↔
        ¬ ∃ char others, line.toList = '-' :: char :: others) ∧
      ((∃ char others, line.toList = '-' :: char :: others) →
        (reader.run (amid front ["-e", line] back) input).exit = 2 ∧
          (reader.run (amid front ["-e", line] back) input).stdout = "") := by
  have agrees := agrees_oneShot echo answered
  refine ⟨by rwa [conventional.run_joined switches], ?_⟩
  cases option : looksLikeOption line with
  | false =>
    have noHyphen : ¬ ∃ char others, line.toList = '-' :: char :: others := by
      rw [← looksLikeOption_iff, option]
      decide
    rw [conventional.run_apart switches input option]
    exact ⟨iff_of_true agrees noHyphen, fun hyphen => absurd hyphen noHyphen⟩
  | true =>
    have hyphen := looksLikeOption_iff.mp option
    obtain ⟨message, refused⟩ := conventional.run_missing switches input option
    rw [refused]
    exact ⟨iff_of_false (fun agrees => agrees.exit_ne_two rfl) (not_not_intro hyphen),
      fun _ => ⟨rfl, rfl⟩⟩

/-- A quotient without a value, in front of a byte that is no text. -/
theorem interact_agrees_vanishingDivisor :
    Reader.Conventional readArguments ∧
      ([Command.tree] ++ []).Perm (Echo.commands { tree := true }) ∧ Answered "7 / (3 - 3)" ∧
      LineEnd ['\r', '\n'] [255] ∧
      (Reader.run readArguments ["--tree", "-e", "7 / (3 - 3)"] []).exit = 1 ∧
      (Reader.run readArguments ["--tree", "-e", "7 / (3 - 3)"] []).stderr =
        "runtime error: division by zero\n  | 7 / (3 - 3)\n  |   ^\n" ++
          "Error: Expression did not evaluate\n" ∧
      interact { tree := true } (Text.encode ("7 / (3 - 3)".toList ++ ['\r', '\n']) ++ [255]) =
        ⟨⟨"> " ++ (Reader.run readArguments ["--tree", "-e", "7 / (3 - 3)"] []).stdout ++ "> ",
          "runtime error: division by zero\n  | 7 / (3 - 3)\n  |   ^\n" ++ unreadable⟩, 1⟩ := by
  have switches : ([Command.tree] ++ []).Perm (Echo.commands { tree := true }) := by decide
  have answered : Answered "7 / (3 - 3)" :=
    ⟨⟨by decide, '7', by decide, by decide⟩, by decide, by intro command; cases command <;> decide⟩
  have failing : answer "7 / (3 - 3)" = .error (.runtime ⟨.divisionByZero, ⟨2, 1⟩⟩) := by
    decide +kernel
  have later : interact { tree := true } [255] = ⟨⟨"> ", unreadable⟩, 1⟩ := by decide +kernel
  have noHyphen : ¬ ∃ char others, "7 / (3 - 3)".toList = '-' :: char :: others := by
    rw [← looksLikeOption_iff]
    decide
  obtain ⟨-, agrees, -⟩ := interact_agrees conventional_readArguments switches answered []
  obtain ⟨reported, session, -, written⟩ := agrees.mpr noHyphen
  rw [failing] at written
  obtain ⟨exit, stderr, rfl⟩ := written
  have both := session _ _ (.returnFeed [255])
  rw [later] at both
  exact ⟨conventional_readArguments, switches, answered, .returnFeed [255], exit, stderr, both⟩

/-- A sum that begins with a hyphen has a value, and no conventional reader lets it through. -/
theorem not_agrees_leadingHyphen :
    Reader.Conventional readArguments ∧ Answered "-5 + 3" ∧
      (answer "-5 + 3").map Value.decimal = .ok "-2" ∧
      ∀ reader : Reader, reader.Conventional → ∀ input,
        (reader.run ["-e", "-5 + 3"] input).exit = 2 ∧
          ¬ Agrees {} "-5 + 3" (reader.run ["-e", "-5 + 3"] input) := by
  have answered : Answered "-5 + 3" :=
    ⟨⟨by decide, '5', by decide, by decide⟩, by decide, by intro command; cases command <;> decide⟩
  have switches : ([] ++ []).Perm (Echo.commands {}) := by decide
  have hyphen : looksLikeOption "-5 + 3" = true := by decide
  have value : (answer "-5 + 3").map Value.decimal = .ok "-2" := by decide +kernel
  refine ⟨conventional_readArguments, answered, value, fun reader conventional input => ?_⟩
  obtain ⟨message, refused⟩ := conventional.run_missing switches input hyphen
  have exit := congrArg Transcript.exit refused
  exact ⟨exit, fun agrees => agrees.exit_ne_two exit⟩

end IntCalc.Shell
