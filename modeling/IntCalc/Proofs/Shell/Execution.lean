/-
**The running program writes its transcript.**

The program answers lines as it reads them, while a transcript speaks of the whole input. Run where
all that is written is kept, on the lines of any input and with any arguments, the program writes
its transcript and ends with the exit status in it (`run_execute`).

* `converse_cons`: the loop answers its first line and goes on as a new one, in every lawful monad;
* `run_converse`: by induction on the lines, it writes what the session on them writes.
-/
import IntCalc.Proofs.Shell.Sessions
import IntCalc.Shell.Program

namespace IntCalc.Shell

/-! ### The loop, line by line -/

section Lawful

universe v

variable {m : Type → Type v} [Monad m] [LawfulMonad m] (write : Output → m Unit)

theorem converse_nil (echo : Echo) :
    converse write ([] : List (List UInt8)) echo = (do write ⟨prompt, ""⟩; return 0) := by
  simp only [converse, List.forIn_nil, pure_bind]

theorem converse_cons (line : List UInt8) (lines : List (List UInt8)) (echo : Echo) :
    converse write (line :: lines) echo = (do
      write ⟨prompt, ""⟩
      match reply echo line with
      | .finish stderr exit =>
        write ⟨"", stderr⟩
        return exit
      | .proceed next output =>
        write output
        converse write lines next) := by
  simp only [converse, List.forIn_cons]
  cases reply echo line with
  | finish stderr exit => simp only [bind_assoc, pure_bind]
  | proceed next output => simp only [bind_assoc, pure_bind]

end Lawful

/-! ### Keeping what is written -/

/-- Writing where what is written is kept. -/
def keep (output : Output) : StateM Output Unit :=
  modify fun written => ⟨written.stdout ++ output.stdout, written.stderr ++ output.stderr⟩

/-- What has been kept when a transcript has been written behind something else. -/
def Output.kept (written : Output) (transcript : Transcript) : UInt32 × Output :=
  (transcript.exit, (written.followedBy transcript).toOutput)

theorem run_finish (transcript : Transcript) (written : Output) :
    (finish keep transcript).run written = pure (written.kept transcript) := rfl

/-- **The loop writes what a session on its lines writes.** -/
theorem run_converse (lines : List (List UInt8)) (echo : Echo) (written : Output) :
    (converse keep lines echo).run written = pure (written.kept (session echo lines)) := by
  induction lines generalizing echo written with
  | nil =>
    rw [converse_nil]
    rfl
  | cons line lines ih =>
    rw [converse_cons]
    cases replied : reply echo line with
    | finish stderr exit =>
      have ended : session echo (line :: lines) = ⟨⟨prompt, stderr⟩, exit⟩ := by
        simp only [session, replied]
      rw [ended]
      simp [keep, Output.kept, Output.followedBy]
    | proceed next output =>
      have answered := session_of_proceed replied lines
      rw [answered]
      simp [keep, Output.kept, Output.followedBy, ih, String.append_assoc]

/-! ### The program -/

/-- **The program writes its transcript**, whatever its arguments and its input are. -/
theorem run_execute (reader : Reader) (arguments : List String) (input : List UInt8) :
    (reader.execute keep arguments (Text.lines input)).run ⟨"", ""⟩ =
      pure ((reader.run arguments input).exit, (reader.run arguments input).toOutput) := by
  have alone : ∀ transcript : Transcript,
      Output.kept ⟨"", ""⟩ transcript = (transcript.exit, transcript.toOutput) := by
    intro transcript
    simp [Output.kept, Output.followedBy]
  unfold Reader.execute Reader.run
  cases reader arguments with
  | error transcript =>
    show (finish keep transcript).run ⟨"", ""⟩ = _
    rw [run_finish, alone]
  | ok options =>
    obtain ⟨echo, line⟩ := options
    cases line with
    | none =>
      show (converse keep (Text.lines input) echo).run ⟨"", ""⟩ = _
      rw [run_converse, alone]
      rfl
    | some line =>
      show (finish keep (oneShot echo line)).run ⟨"", ""⟩ = _
      rw [run_finish, alone]
      rfl

end IntCalc.Shell
