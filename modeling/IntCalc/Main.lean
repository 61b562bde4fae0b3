/-
**The program on the standard streams.**

The lines of the standard input are read one at a time, each when the session asks for it. What is
done with them, and what is written, is decided elsewhere (`Shell.Reader.execute`).
-/
import IntCalc.Shell.Arguments

namespace IntCalc.Shell

/-- Reads the bytes of one line, up to and including its line feed. -/
partial def readLine (input : IO.FS.Stream) (read : ByteArray) : IO ByteArray := do
  let next ← input.read 1
  if next.isEmpty then
    return read
  else if next.toList = [Text.lineFeed] then
    return read ++ next
  else
    readLine input (read ++ next)

/-- The lines that are still to be read from a stream. -/
structure Lines where
  source : IO.FS.Stream

/-- Does something with each line, until told to stop or at the end of the stream. -/
partial def Lines.each {β : Type} (lines : Lines) (state : β)
    (visit : List UInt8 → β → IO (ForInStep β)) : IO β := do
  let line ← readLine lines.source .empty
  if line.isEmpty then
    return state
  match ← visit line.toList state with
  | .done state => return state
  | .yield state => lines.each state visit

instance : ForIn IO Lines (List UInt8) where
  forIn := Lines.each

def write (output : Output) : IO Unit := do
  let stdout ← IO.getStdout
  stdout.putStr output.stdout
  stdout.flush
  (← IO.getStderr).putStr output.stderr

end IntCalc.Shell

/-- Runs the program with the given arguments. -/
def main (arguments : List String) : IO UInt32 := do
  IntCalc.Shell.Reader.execute IntCalc.Shell.readArguments IntCalc.Shell.write arguments
    (IntCalc.Shell.Lines.mk (← IO.getStdin))
