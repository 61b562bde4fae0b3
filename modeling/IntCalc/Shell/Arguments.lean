/-
**A reader of command lines.**

Arguments are read from left to right. A request for the help text or the version takes effect as
soon as it is met, whatever follows it, and so does an argument that cannot be read. An option may
be given once.

The value of `-e` is the rest of its argument, less one `=` in front, or else the next argument; a
next argument that looks like an option is none.

This is the outer layer: the program is described for any reader, and what is proved of it rests on
the conventions alone (`Reader.Conventional`).
-/
import IntCalc.Shell.Program

namespace IntCalc.Shell

/-! ### Texts -/

def versionText : String := "mc 0.1.0\n"

def helpText : String :=
  String.join <| List.map (· ++ "\n") [
    "Integer arithmetic expression evaluator",
    "",
    "Usage: mc [OPTIONS]",
    "",
    "Options:",
    "  -e, --eval <EXPR>  Evaluate a single expression and exit",
    "      --tree         Print the syntax tree of each line",
    "      --tokens       Print the token stream of each line",
    "  -h, --help         Print help",
    "  -V, --version      Print version"]

/-- The run ends with a text that was asked for. -/
def showText (text : String) : Except Transcript Options := .error ⟨⟨text, ""⟩, 0⟩

/-- The run ends because of an argument. -/
def refuse (argument : String) : Except Transcript Options :=
  .error ⟨⟨"", "error: the arguments cannot be read from '" ++ argument ++ "' on\n"⟩, 2⟩

/-! ### Single arguments -/

/-- What a single argument says. -/
inductive Argument where
  | help
  | version
  | switch (command : Command)
  /-- A line is to be evaluated; without a value it is the next argument. -/
  | evaluate (line : Option String)
  | endOfOptions
  deriving DecidableEq

namespace Argument

/-- An option with a long name, that may have a value after an equals sign. -/
def ofLong? (name : String) (value : Option String) : Option Argument :=
  match name, value with
  | "eval", line => some (.evaluate line)
  | "help", none => some .help
  | "version", none => some .version
  | "tree", none => some (.switch .tree)
  | "tokens", none => some (.switch .tokens)
  | _, _ => none

/-- What an argument says, if it is an option. -/
def ofString? (argument : String) : Option Argument :=
  match argument.toList with
  | ['-', '-'] => some .endOfOptions
  | '-' :: '-' :: long =>
    let name := String.ofList (long.takeWhile (· ≠ '='))
    match long.dropWhile (· ≠ '=') with
    | [] => ofLong? name none
    | _ :: value => ofLong? name (some (String.ofList value))
  | '-' :: 'h' :: _ => some .help
  | '-' :: 'V' :: _ => some .version
  | ['-', 'e'] => some (.evaluate none)
  | '-' :: 'e' :: '=' :: line => some (.evaluate (some (String.ofList line)))
  | '-' :: 'e' :: line => some (.evaluate (some (String.ofList line)))
  | _ => none

end Argument

/-! ### Command lines -/

/-- The options that were met so far and those that the arguments after them give. -/
def readAfter (options : Options) : List String → Except Transcript Options
  | [] => .ok options
  | argument :: others =>
    match Argument.ofString? argument with
    | some .help => showText helpText
    | some .version => showText versionText
    | some (.switch command) =>
      if options.echo.isOn command then refuse argument
      else readAfter { options with echo := options.echo.flip command } others
    | some (.evaluate (some line)) =>
      if options.line.isSome then refuse argument
      else readAfter { options with line := some line } others
    | some (.evaluate none) =>
      match others with
      | [] => refuse argument
      | line :: others =>
        if looksLikeOption line || options.line.isSome then refuse argument
        else readAfter { options with line := some line } others
    | some .endOfOptions =>
      match others with
      | [] => .ok options
      | extra :: _ => refuse extra
    | none => refuse argument

/-- The options that arguments give. -/
def readArguments : Reader := readAfter {}

/-- The transcript of a run; of one whose arguments are refused, the message only. -/
def run (arguments : List String) (input : List UInt8) : Except String Transcript :=
  let transcript := Reader.run readArguments arguments input
  if transcript.exit = 2 then .error transcript.stderr else .ok transcript

end IntCalc.Shell
