/-
**The program.**

The arguments of a run set the switches and may give a line. A given line is answered by itself;
without one the lines of the standard input are answered in a session (`Options.transcript`).

How arguments are read is left open: a reader gives the options, or ends the run itself, when a help
text is asked for or when the arguments make no sense to it. `Reader.Conventional` is what readers of
command lines agree on about an option with a value.

The running program is written once for every monad, over the means to write and the stream of
lines, so that the loop which answers the standard input and the one that is reasoned about are the
same (`Reader.execute`).
-/
import IntCalc.Shell.Session

namespace IntCalc.Shell

/-- What the arguments of a run say. -/
structure Options where
  echo : Echo := {}
  line : Option String := none
  deriving DecidableEq

/-- The transcript of a run with some options and some bytes on the standard input. -/
def Options.transcript (options : Options) (input : List UInt8) : Transcript :=
  match options.line with
  | some line => oneShot options.echo line
  | none => interact options.echo input

/-! ### Readers of command lines -/

/-- What makes options of arguments, or ends the run with a transcript of its own. -/
abbrev Reader := List String → Except Transcript Options

/-- The transcript of a run with some arguments and some bytes on the standard input. -/
def Reader.run (reader : Reader) (arguments : List String) (input : List UInt8) : Transcript :=
  match reader arguments with
  | .ok options => options.transcript input
  | .error transcript => transcript

/-- The option that sets the switch of a command. -/
def Command.option : Command → String
  | tokens => "--tokens"
  | tree => "--tree"

/-- The commands whose switches are on. -/
def Echo.commands (echo : Echo) : List Command := [.tree, .tokens].filter echo.isOn

/-- Some arguments between options that set switches. -/
def amid (front : List Command) (arguments : List String) (back : List Command) : List String :=
  front.map Command.option ++ arguments ++ back.map Command.option

/-- Whether an argument looks like an option: a hyphen and something behind it. -/
def looksLikeOption (argument : String) : Bool :=
  match argument.toList with
  | '-' :: _ :: _ => true
  | _ => false

theorem looksLikeOption_iff {argument : String} :
    looksLikeOption argument = true ↔ ∃ char others, argument.toList = '-' :: char :: others := by
  unfold looksLikeOption
  split
  · rename_i char others split
    exact iff_of_true rfl ⟨char, others, split⟩
  · rename_i other
    exact iff_of_false Bool.false_ne_true fun ⟨char, others, split⟩ => other char others split

/-- **The conventions about an option with a value**, here `-e` among switches in any order. -/
structure Reader.Conventional (reader : Reader) : Prop where
  /-- The next argument is the value. -/
  apart : ∀ {echo : Echo} {front back : List Command}, (front ++ back).Perm echo.commands →
    ∀ {line : String}, looksLikeOption line = false →
      reader (amid front ["-e", line] back) = .ok ⟨echo, some line⟩
  /-- A next argument that looks like an option is no value, and a run without the value is refused,
  with the exit status for faulty arguments. -/
  missing : ∀ {echo : Echo} {front back : List Command}, (front ++ back).Perm echo.commands →
    ∀ {line : String}, looksLikeOption line = true →
      ∃ message, reader (amid front ["-e", line] back) = .error ⟨⟨"", message⟩, 2⟩
  /-- Behind an equals sign everything is the value. -/
  joined : ∀ {echo : Echo} {front back : List Command}, (front ++ back).Perm echo.commands →
    ∀ line : String, reader (amid front ["-e=" ++ line] back) = .ok ⟨echo, some line⟩

/-! ### Running -/

section Running

universe u v

variable {m : Type → Type v} [Monad m] {ρ : Type u} [ForIn m ρ (List UInt8)]

/-- Answers lines until the session ends. A prompt is written before each line is read. -/
def converse (write : Output → m Unit) (lines : ρ) (echo : Echo) : m UInt32 := do
  let mut echo := echo
  write ⟨prompt, ""⟩
  for line in lines do
    match reply echo line with
    | .finish stderr exit =>
      write ⟨"", stderr⟩
      return exit
    | .proceed next output =>
      write output
      write ⟨prompt, ""⟩
      echo := next
  return 0

/-- Writes a transcript that is there as a whole. -/
def finish (write : Output → m Unit) (transcript : Transcript) : m UInt32 := do
  write transcript.toOutput
  return transcript.exit

/-- Runs the program with some arguments on a stream of lines. -/
def Reader.execute (reader : Reader) (write : Output → m Unit) (arguments : List String)
    (lines : ρ) : m UInt32 :=
  match reader arguments with
  | .ok ⟨echo, none⟩ => converse write lines echo
  | .ok ⟨echo, some line⟩ => finish write (oneShot echo line)
  | .error transcript => finish write transcript

end Running

end IntCalc.Shell
