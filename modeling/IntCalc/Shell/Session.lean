/-
**Sessions and single lines.**

A transcript is what has been written to the two output streams and the exit status in the end. The
same is written for a line that is read in a session (`Shell.session`) and for one that is given on
the command line (`Shell.oneShot`), and all that a session remembers from one line to the next is
how the switches are set.
-/
import IntCalc.Answer
import IntCalc.Shell.Echo
import IntCalc.Text.Lines

namespace IntCalc.Shell

/-- What is written for a line. -/
structure Output where
  stdout : String
  stderr : String
  deriving DecidableEq

/-- What the shell has written when it ends, and its exit status. -/
structure Transcript extends Output where
  exit : UInt32
  deriving DecidableEq

/-! ### Single lines -/

/-- What is shown of a line before its answer. -/
def preamble (echo : Echo) (line : String) (parsed : ParsedLine) : String :=
  (if echo.tokens then tokenDump (tokenize line).1 else "") ++
    (if echo.tree then parsed.root.pretty else "")

/-- What is written for an answer: the value, or the report of the failure. -/
def answerOutput (line : String) : Answer → Output
  | .ok value => ⟨value.decimal ++ "\n", ""⟩
  | .error failure => ⟨"", (failure.report line).render⟩

/-- What is written for a line. -/
def lineOutput (echo : Echo) (line : String) : Output :=
  let parsed := parse line
  let shown := answerOutput line parsed.answer
  ⟨preamble echo line parsed ++ shown.stdout, shown.stderr⟩

/-- The last words on a line of the command line without a value. -/
def notEvaluated : String := "Error: Expression did not evaluate\n"

/-- The transcript for one line that is given on the command line. -/
def oneShot (echo : Echo) (line : String) : Transcript :=
  let output := lineOutput echo line
  match answer line with
  | .ok _ => ⟨output, 0⟩
  | .error _ => ⟨⟨output.stdout, output.stderr ++ notEvaluated⟩, 1⟩

/-! ### Sessions -/

def prompt : String := "> "

/-- The last words on input that is no text. -/
def unreadable : String :=
  "Error: Failed to read from stdin\n\nCaused by:\n    stream did not contain valid UTF-8\n"

/-- What the shell does about a line of its input. -/
inductive Reply where
  | proceed (echo : Echo) (output : Output)
  | finish (stderr : String) (exit : UInt32)
  deriving DecidableEq

/-- The reply to a line of text: a blank one ends the session, and a command flips a switch. -/
def replyToText (echo : Echo) (text : List Char) : Reply :=
  let line := Text.dropLineEnd text
  if line.all Text.isBlank then
    .finish "" 0
  else
    let trimmed := Text.trim line
    match Command.ofText? trimmed with
    | some command =>
      let flipped := echo.flip command
      let state := if flipped.isOn command then " on\n" else " off\n"
      .proceed flipped ⟨String.ofList trimmed ++ state, ""⟩
    | none => .proceed echo (lineOutput echo (String.ofList line))

/-- The reply to a line of bytes: one that is not UTF-8 ends the session as a failure. -/
def reply (echo : Echo) (bytes : List UInt8) : Reply :=
  match String.fromUTF8? ⟨bytes.toArray⟩ with
  | some text => replyToText echo text.toList
  | none => .finish unreadable 1

/-- The transcript of a session whose input has the given lines. The end of the input ends the
session like a blank line. -/
def session (echo : Echo) : List (List UInt8) → Transcript
  | [] => ⟨⟨prompt, ""⟩, 0⟩
  | line :: lines =>
    match reply echo line with
    | .finish stderr exit => ⟨⟨prompt, stderr⟩, exit⟩
    | .proceed echo output =>
      let later := session echo lines
      ⟨⟨prompt ++ output.stdout ++ later.stdout, output.stderr ++ later.stderr⟩, later.exit⟩

/-- The transcript of a session on a stream of bytes. -/
def interact (echo : Echo) (input : List UInt8) : Transcript := session echo (Text.lines input)

end IntCalc.Shell
