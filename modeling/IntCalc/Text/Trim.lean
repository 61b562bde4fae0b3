/-
**Trimming.**

Blanks at both ends of a text, or line ends after it, may be left off. More of them behind the text
make no difference (`dropEndWhile_append`).
-/
import IntCalc.Text.Blank

namespace IntCalc.Text

/-- The text without the last characters that satisfy the test. -/
def dropEndWhile (test : Char → Bool) (text : List Char) : List Char :=
  (text.reverse.dropWhile test).reverse

/-- The text without the blanks at both ends. -/
def trim (text : List Char) : List Char := dropEndWhile isBlank (text.dropWhile isBlank)

def isLineEnd (char : Char) : Bool := char = '\n' || char = '\r'

/-- The text without the line feeds and carriage returns at its end. -/
def dropLineEnd (text : List Char) : List Char := dropEndWhile isLineEnd text

theorem dropEndWhile_append {test : Char → Bool} {tail : List Char}
    (satisfied : ∀ char ∈ tail, test char = true) (text : List Char) :
    dropEndWhile test (text ++ tail) = dropEndWhile test text := by
  rw [dropEndWhile, dropEndWhile, List.reverse_append,
    List.dropWhile_append_of_pos (by simpa using satisfied)]

end IntCalc.Text
