/-
**The reader of command lines is conventional.**

Among switches in any order, `-e` takes the next argument as its value unless that looks like an
option, and takes whatever is joined to it by an equals sign (`conventional_readArguments`).

* `readAfter_options`: by induction on the switches, each of them is flipped once;
* `foldl_flip`: in whatever order they stand, the switches come out as they are to be.
-/
import IntCalc.Shell.Arguments
import Mathlib.Data.List.Nodup
import Mathlib.Data.List.Perm.Basic

namespace IntCalc.Shell

/-! ### Switches -/

theorem Echo.isOn_flip_of_ne {command other : Command} (apart : other ≠ command) (echo : Echo) :
    (echo.flip command).isOn other = echo.isOn other := by
  cases command <;> cases other <;> first | rfl | exact absurd rfl apart

theorem Echo.isOn_foldl_flip {command : Command} {commands : List Command}
    (absent : command ∉ commands) (echo : Echo) :
    (commands.foldl Echo.flip echo).isOn command = echo.isOn command := by
  induction commands generalizing echo with
  | nil => rfl
  | cons first commands ih =>
    obtain ⟨apart, others⟩ := not_or.mp (List.mem_cons.not.mp absent)
    rw [List.foldl_cons, ih others, isOn_flip_of_ne apart]

theorem Echo.flip_right_comm (echo : Echo) (first second : Command) :
    (echo.flip first).flip second = (echo.flip second).flip first := by
  cases first <;> cases second <;> rfl

theorem Echo.nodup_commands (echo : Echo) : echo.commands.Nodup :=
  List.Nodup.filter _ (by decide)

/-- **Flipping all that is to be on**, in any order, gives the switches. -/
theorem Echo.foldl_flip {echo : Echo} {commands : List Command}
    (given : commands.Perm echo.commands) : commands.foldl Echo.flip {} = echo := by
  rw [given.foldl_eq' (fun first _ second _ echo => flip_right_comm echo first second)]
  obtain ⟨tokens, tree⟩ := echo
  cases tokens <;> cases tree <;> rfl

/-! ### Reading -/

theorem Argument.ofString?_option (command : Command) :
    ofString? command.option = some (.switch command) := by
  cases command <;> decide

theorem Argument.ofString?_joined (line : String) :
    ofString? ("-e=" ++ line) = some (.evaluate (some line)) := by
  have written : ("-e=" ++ line).toList = '-' :: 'e' :: '=' :: line.toList := by
    rw [String.toList_append]
    rfl
  unfold ofString?
  rw [written]
  show some (Argument.evaluate (some (String.ofList line.toList))) = _
  rw [String.ofList_toList]

/-- **Switches are read one by one**, as long as none is given again. -/
theorem readAfter_options {commands : List Command} (nodup : commands.Nodup) {echo : Echo}
    (off : ∀ command ∈ commands, echo.isOn command = false) (line : Option String)
    (others : List String) :
    readAfter ⟨echo, line⟩ (commands.map Command.option ++ others) =
      readAfter ⟨commands.foldl Echo.flip echo, line⟩ others := by
  induction commands generalizing echo with
  | nil => rfl
  | cons command commands ih =>
    obtain ⟨absent, nodup⟩ := List.nodup_cons.mp nodup
    obtain ⟨here, off⟩ := List.forall_mem_cons.mp off
    have still : ∀ other ∈ commands, (echo.flip command).isOn other = false := by
      intro other member
      have apart : other ≠ command := fun same => absent (same ▸ member)
      rw [Echo.isOn_flip_of_ne apart, off other member]
    rw [List.map_cons, List.cons_append, readAfter.eq_def]
    simp only [Argument.ofString?_option, here, Bool.false_eq_true, if_false]
    exact ih nodup still

/-- An argument behind `-e` is its value, unless there is one already. -/
theorem readAfter_apart (options : Options) (line : String) (others : List String) :
    readAfter options ("-e" :: line :: others) =
      if looksLikeOption line || options.line.isSome then refuse "-e"
      else readAfter { options with line := some line } others := by
  have said : Argument.ofString? "-e" = some (.evaluate none) := by decide
  rw [readAfter.eq_def]
  simp only [said]

theorem readAfter_joined (echo : Echo) (line : String) (others : List String) :
    readAfter ⟨echo, none⟩ (("-e=" ++ line) :: others) = readAfter ⟨echo, some line⟩ others := by
  rw [readAfter.eq_def]
  simp only [Argument.ofString?_joined]
  rfl

/-- What stands among the switches is read behind those in front of it. -/
theorem readArguments_amid {front : List Command} (nodup : front.Nodup) (given : List String)
    (back : List Command) :
    readArguments (amid front given back) =
      readAfter ⟨front.foldl Echo.flip {}, none⟩ (given ++ back.map Command.option) := by
  have off : ∀ command ∈ front, Echo.isOn {} command = false := by
    intro command _
    cases command <;> rfl
  rw [readArguments, amid, List.append_assoc]
  exact readAfter_options nodup off none _

/-- **Arguments that are read as a line give it**, whatever switches stand around them. -/
theorem readArguments_of_line {echo : Echo} {front back : List Command}
    (switches : (front ++ back).Perm echo.commands) {given : List String} {line : String}
    (read : ∀ echo others, readAfter ⟨echo, none⟩ (given ++ others) =
      readAfter ⟨echo, some line⟩ others) :
    readArguments (amid front given back) = .ok ⟨echo, some line⟩ := by
  have nodup : (front ++ back).Nodup := switches.nodup_iff.mpr echo.nodup_commands
  obtain ⟨front_nodup, back_nodup, apart⟩ := List.nodup_append'.mp nodup
  have off : ∀ command ∈ back, (front.foldl Echo.flip {}).isOn command = false := by
    intro command member
    rw [Echo.isOn_foldl_flip fun inFront => apart inFront member]
    cases command <;> rfl
  have whole := readAfter_options back_nodup off (some line) []
  rw [List.append_nil, ← List.foldl_append, Echo.foldl_flip switches] at whole
  rw [readArguments_amid front_nodup, read, whole]
  rfl

/-- **The reader of command lines is conventional.** -/
theorem conventional_readArguments : Reader.Conventional readArguments where
  apart switches line value := by
    refine readArguments_of_line switches fun echo others => ?_
    show readAfter ⟨echo, none⟩ ("-e" :: line :: others) = _
    rw [readAfter_apart, value]
    rfl
  missing {echo front back} switches line hyphen := by
    have nodup : (front ++ back).Nodup := switches.nodup_iff.mpr echo.nodup_commands
    rw [readArguments_amid (List.nodup_append'.mp nodup).1]
    show ∃ message, readAfter _ ("-e" :: line :: back.map Command.option) = _
    rw [readAfter_apart, hyphen]
    exact ⟨_, rfl⟩
  joined switches line :=
    readArguments_of_line switches fun echo others => readAfter_joined echo line others

end IntCalc.Shell
