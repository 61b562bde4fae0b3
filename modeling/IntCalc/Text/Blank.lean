/-
**Blank characters.**

A character is blank if it has the Unicode property White_Space. The property belongs to 25 code
points, listed here as ranges (`blankRanges`). No digit is blank (`isBlank_eq_false_of_isDigit`).
-/

namespace IntCalc.Text

/-- The code points with the property White_Space, as ranges with both ends included, in order. -/
def blankRanges : List (Nat × Nat) :=
  [(0x0009, 0x000D), (0x0020, 0x0020), (0x0085, 0x0085), (0x00A0, 0x00A0), (0x1680, 0x1680),
    (0x2000, 0x200A), (0x2028, 0x2029), (0x202F, 0x202F), (0x205F, 0x205F), (0x3000, 0x3000)]

/-- Whether a character is blank. -/
def isBlank (char : Char) : Bool :=
  blankRanges.any fun (least, greatest) => least ≤ char.toNat && char.toNat ≤ greatest

example : (blankRanges.map fun (least, greatest) => greatest + 1 - least).sum = 25 := by decide

theorem isBlank_eq_false_of_isDigit {char : Char} (digit : char.isDigit = true) :
    isBlank char = false := by
  have least : 48 ≤ char.toNat := (Char.isDigit_iff_toNat.mp digit).1
  have greatest : char.toNat ≤ 57 := (Char.isDigit_iff_toNat.mp digit).2
  simp only [isBlank, blankRanges, List.any_cons, List.any_nil, Bool.or_eq_false_iff,
    Bool.and_eq_false_iff, decide_eq_false_iff_not, and_true]
  omega

theorem isDigit_eq_false_of_isBlank {char : Char} (blank : isBlank char = true) :
    char.isDigit = false := by
  rw [Bool.eq_false_iff]
  intro digit
  rw [isBlank_eq_false_of_isDigit digit] at blank
  cases blank

end IntCalc.Text
