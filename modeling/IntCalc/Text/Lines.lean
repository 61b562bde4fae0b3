/-
**Lines of a stream of bytes.**

A line goes on up to and including a line feed, and the last one may lack it. No byte is lost
(`flatten_lines`), and what follows a complete line is divided as if it stood alone
(`lines_append`).
-/

namespace IntCalc.Text

def lineFeed : UInt8 := 10

/-- Puts a byte in front of divided lines: it opens the first one further on the left, unless it
ends a line itself. -/
def consByte (byte : UInt8) (lines : List (List UInt8)) : List (List UInt8) :=
  if byte = lineFeed then
    [byte] :: lines
  else
    match lines with
    | [] => [[byte]]
    | first :: others => (byte :: first) :: others

/-- The lines of a stream, each with the line feed that ends it. -/
def lines (bytes : List UInt8) : List (List UInt8) := bytes.foldr consByte []

theorem flatten_lines (bytes : List UInt8) : (lines bytes).flatten = bytes := by
  induction bytes with
  | nil => rfl
  | cons byte rest hypothesis =>
    change (consByte byte (lines rest)).flatten = byte :: rest
    unfold consByte
    split
    · rw [List.flatten_cons, hypothesis, List.singleton_append]
    · split
      · rename_i empty
        rw [empty] at hypothesis
        simp [← hypothesis]
      · rename_i first others divided
        rw [divided] at hypothesis
        simp [← hypothesis]

/-- Lines after a line feed are divided by themselves. -/
theorem lines_append (front back : List UInt8) :
    lines (front ++ lineFeed :: back) = lines (front ++ [lineFeed]) ++ lines back := by
  induction front with
  | nil => simp [lines, consByte]
  | cons byte rest hypothesis =>
    change consByte byte (lines (rest ++ lineFeed :: back)) =
      consByte byte (lines (rest ++ [lineFeed])) ++ lines back
    rw [hypothesis]
    unfold consByte
    split
    · rfl
    · cases divided : lines (rest ++ [lineFeed]) with
      | nil =>
        have whole := flatten_lines (rest ++ [lineFeed])
        simp [divided] at whole
      | cons first others => rfl

end IntCalc.Text
