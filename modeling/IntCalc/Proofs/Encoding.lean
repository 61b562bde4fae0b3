/-
**Texts as bytes, and lines of bytes.**

A text goes into a stream character by character (`Text.encode`), and its bytes are read back as the
text (`fromUTF8?_encode`). The division of a stream into lines looks at bytes only. It divides texts
as it should because the byte of a line feed stands for a line feed and nothing else: every byte of a
longer character has its highest bit set (`mem_utf8EncodeChar`). So an encoded line is a line of the
stream, whether the end of the line or the end of the stream stops it (`lines_encode_append`,
`lines_encode`).
-/
import IntCalc.Text.Lines

namespace IntCalc.Text

/-! ### Bytes of texts -/

/-- The bytes of a text in UTF-8. -/
def encode (text : List Char) : List UInt8 := text.flatMap String.utf8EncodeChar

theorem encode_append (front back : List Char) :
    encode (front ++ back) = encode front ++ encode back :=
  List.flatMap_append

theorem encode_eq_nil_iff {text : List Char} : encode text = [] ↔ text = [] := by
  constructor
  · intro empty
    cases text with
    | nil => rfl
    | cons char rest =>
      have first := (List.append_eq_nil_iff.mp ((List.flatMap_cons ..).symm.trans empty)).1
      exact absurd first String.utf8EncodeChar_ne_nil
  · rintro rfl
    rfl

theorem byteArray_encode (text : List Char) :
    (⟨(encode text).toArray⟩ : ByteArray) = (String.ofList text).toByteArray := by
  rw [String.toByteArray_ofList, List.utf8Encode]
  apply ByteArray.ext
  apply Array.toList_inj.mp
  rw [List.toList_data_toByteArray]
  rfl

/-- **The bytes of a text are read back as the text.** -/
theorem fromUTF8?_encode (text : List Char) :
    String.fromUTF8? ⟨(encode text).toArray⟩ = some (String.ofList text) := by
  rw [byteArray_encode, String.fromUTF8?, dif_pos (String.ofList text).isValidUTF8]
  rfl

/-! ### Line feeds -/

/-- A byte of a character is the number of the character, or it is beyond those of small ones. -/
theorem mem_utf8EncodeChar {char : Char} {byte : UInt8}
    (member : byte ∈ String.utf8EncodeChar char) : byte.toNat = char.toNat ∨ 128 ≤ byte.toNat := by
  have value : char.val.toNat = char.toNat := rfl
  simp only [String.utf8EncodeChar] at member
  split at member
  · left
    rw [List.mem_singleton.mp member, UInt8.toNat_ofNat']
    omega
  · right
    split at member
    · simp only [List.mem_cons, List.not_mem_nil, or_false] at member
      rcases member with rfl | rfl <;> rw [UInt8.toNat_ofNat'] <;> omega
    · split at member
      · simp only [List.mem_cons, List.not_mem_nil, or_false] at member
        rcases member with rfl | rfl | rfl <;> rw [UInt8.toNat_ofNat'] <;> omega
      · simp only [List.mem_cons, List.not_mem_nil, or_false] at member
        rcases member with rfl | rfl | rfl | rfl <;> rw [UInt8.toNat_ofNat'] <;> omega

/-- **Only a line feed has the byte of a line feed.** -/
theorem lineFeed_notMem_encode {text : List Char} (single : '\n' ∉ text) :
    lineFeed ∉ encode text := by
  intro member
  obtain ⟨char, inside, byte⟩ := List.mem_flatMap.mp member
  have number : lineFeed.toNat = '\n'.toNat := rfl
  have small : '\n'.toNat = 10 := rfl
  have same : char.toNat = '\n'.toNat := by
    rcases mem_utf8EncodeChar byte with same | large
    · exact same.symm
    · omega
  rw [Char.toNat_inj.mp same] at inside
  exact single inside

/-! ### Lines of a stream -/

/-- A stream that does not stop inside a line. -/
def Complete (bytes : List UInt8) : Prop := bytes = [] ∨ bytes.getLast? = some lineFeed

/-- Lines behind a stream of complete lines are divided by themselves. -/
theorem lines_append_of_complete {front : List UInt8} (complete : Complete front)
    (back : List UInt8) : lines (front ++ back) = lines front ++ lines back := by
  rcases complete with rfl | ended
  · rfl
  · obtain ⟨earlier, rfl⟩ := List.getLast?_eq_some_iff.mp ended
    rw [List.append_assoc, List.singleton_append, lines_append]

/-- A byte that ends no line belongs to the line behind it. -/
theorem lines_cons_of_ne {byte : UInt8} {rest first : List UInt8} {others : List (List UInt8)}
    (other : byte ≠ lineFeed) (divided : lines rest = first :: others) :
    lines (byte :: rest) = (byte :: first) :: others := by
  show consByte byte (lines rest) = (byte :: first) :: others
  simp only [consByte, if_neg other, divided]

/-- A stream without a line feed is one line. -/
theorem lines_of_notMem {bytes : List UInt8} (single : lineFeed ∉ bytes) (nonempty : bytes ≠ []) :
    lines bytes = [bytes] := by
  induction bytes with
  | nil => contradiction
  | cons byte rest ih =>
    have other : byte ≠ lineFeed := fun same => single (same ▸ List.mem_cons_self)
    by_cases last : rest = []
    · rw [last]
      show consByte byte [] = [[byte]]
      simp only [consByte, if_neg other]
    · exact lines_cons_of_ne other (ih (fun inside => single (List.mem_cons_of_mem byte inside)) last)

theorem lines_lineFeed {bytes : List UInt8} (single : lineFeed ∉ bytes) :
    lines (bytes ++ [lineFeed]) = [bytes ++ [lineFeed]] := by
  induction bytes with
  | nil => rfl
  | cons byte rest ih =>
    have other : byte ≠ lineFeed := fun same => single (same ▸ List.mem_cons_self)
    exact lines_cons_of_ne other (ih fun inside => single (List.mem_cons_of_mem byte inside))

/-- **An encoded line is the first line of a stream** that goes on behind its end. -/
theorem lines_encode_append {line : List Char} (single : '\n' ∉ line) (rest : List UInt8) :
    lines (encode (line ++ ['\n']) ++ rest) = encode (line ++ ['\n']) :: lines rest := by
  have ended : encode (line ++ ['\n']) = encode line ++ [lineFeed] := encode_append ..
  rw [ended, List.append_assoc, List.singleton_append, lines_append,
    lines_lineFeed (lineFeed_notMem_encode single), List.singleton_append]

/-- An encoded line without an end is the only line of its stream. -/
theorem lines_encode {line : List Char} (single : '\n' ∉ line) (nonempty : line ≠ []) :
    lines (encode line) = [encode line] :=
  lines_of_notMem (lineFeed_notMem_encode single) (mt encode_eq_nil_iff.mp nonempty)

end IntCalc.Text
