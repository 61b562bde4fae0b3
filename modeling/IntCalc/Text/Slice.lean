/-
**Slices of a text, addressed by bytes.**

A text is a list of characters, a position in it a number of bytes of its UTF-8 form. A position
past the end or inside a character addresses nothing. Past the bytes of a front comes exactly what
follows it (`dropBytes?_byteLength_append`), so the bytes of a middle part address that part
(`slice?_append`).
-/
import IntCalc.Span

namespace IntCalc.Text

/-- The number of bytes that a text takes in UTF-8. -/
def byteLength (text : List Char) : Nat := text.foldr (fun char bytes => char.utf8Size + bytes) 0

@[simp]
theorem byteLength_nil : byteLength [] = 0 := rfl

@[simp]
theorem byteLength_cons (char : Char) (rest : List Char) :
    byteLength (char :: rest) = char.utf8Size + byteLength rest := rfl

@[simp]
theorem byteLength_append (front back : List Char) :
    byteLength (front ++ back) = byteLength front + byteLength back := by
  induction front with
  | nil => simp
  | cons char rest hypothesis => simp [hypothesis, Nat.add_assoc]

theorem byteLength_eq_zero_iff {text : List Char} : byteLength text = 0 ↔ text = [] := by
  cases text with
  | nil => simp
  | cons char rest =>
    have positive := Char.utf8Size_pos char
    simp only [byteLength_cons, reduceCtorEq, iff_false]
    omega

/-- The size of a string is the number of bytes of its characters. -/
theorem utf8ByteSize_eq_byteLength (text : String) :
    text.utf8ByteSize = byteLength text.toList := by
  rw [← String.ofList_toList (s := text), String.toList_ofList]
  generalize text.toList = chars
  induction chars with
  | nil => simp
  | cons char rest hypothesis =>
    rw [← List.singleton_append, String.ofList_append, String.utf8ByteSize_append, hypothesis,
      byteLength_append]
    congr 1
    simp [byteLength]

/-- What follows the first bytes of a text, if they end between two characters of it. -/
def dropBytes? : Nat → List Char → Option (List Char)
  | 0, text => some text
  | _ + 1, [] => none
  | bytes + 1, char :: rest =>
    if char.utf8Size ≤ bytes + 1 then dropBytes? (bytes + 1 - char.utf8Size) rest else none

theorem dropBytes?_cons_of_le {bytes : Nat} {char : Char} {rest : List Char}
    (fits : char.utf8Size ≤ bytes) :
    dropBytes? bytes (char :: rest) = dropBytes? (bytes - char.utf8Size) rest := by
  have positive := Char.utf8Size_pos char
  cases bytes with
  | zero => omega
  | succ bytes => simp [dropBytes?, fits]

theorem dropBytes?_byteLength_append (front back : List Char) :
    dropBytes? (byteLength front) (front ++ back) = some back := by
  induction front with
  | nil => simp [dropBytes?]
  | cons char rest hypothesis =>
    rw [byteLength_cons, List.cons_append, dropBytes?_cons_of_le (Nat.le_add_right ..),
      Nat.add_sub_cancel_left, hypothesis]

/-- The characters of a span, if both its ends lie between characters of the text. -/
def slice? (text : List Char) (span : Span) : Option (List Char) := do
  let back ← dropBytes? span.start text
  let after ← dropBytes? span.length back
  return back.take (back.length - after.length)

/-- The slice over the bytes of a middle part is that part. -/
theorem slice?_append (front middle back : List Char) :
    slice? (front ++ middle ++ back) ⟨byteLength front, byteLength middle⟩ = some middle := by
  simp only [slice?, List.append_assoc, dropBytes?_byteLength_append, Option.bind_eq_bind,
    Option.bind_some, Option.pure_def, List.length_append, Nat.add_sub_cancel]
  rw [List.take_left]

end IntCalc.Text
