/-
**What numerals denote, and what is reported of the tokens of a line.**

A numeral denotes the number whose decimal digits it has, each counted by its place
(`Text.denoted`), however many there are and however many leading zeros. Its value can be found
one digit at a time, in checked arithmetic on values (`Value.accumulate?`): multiplying by ten and
adding a digit never brings a number back into the range once it has left it, so the accumulation
answers exactly if the number denoted is in range (`accumulate?_eq`).

Every token of a line has the value that it should have (`Token.HasExactValue`). What is reported
of the tokens is one complaint for each of those that are faulty (`Token.Complaint`), in the order
of the line and about stretches that do not overlap (`tokenize_exact`).
-/
import IntCalc.Diagnostic.Basic
import IntCalc.Proofs.Partition
import Mathlib.Algebra.Group.Nat.Defs
import Mathlib.Data.List.Forall2

namespace IntCalc

/-! ### Digits by their place -/

namespace Text

/-- The number that decimal digits denote. -/
def denoted : List Char → Nat
  | [] => 0
  | digit :: others => (digit.toNat - '0'.toNat) * 10 ^ others.length + denoted others

/-- Reading digits from the left gives the number that they denote, behind what was read before. -/
theorem ofDigitChars_eq_denoted (digits : List Char) (read : Nat) :
    Nat.ofDigitChars 10 digits read = read * 10 ^ digits.length + denoted digits := by
  induction digits generalizing read with
  | nil =>
    rw [Nat.ofDigitChars_nil, denoted, List.length_nil, Nat.pow_zero, Nat.mul_one, Nat.add_zero]
  | cons digit others ih =>
    rw [Nat.ofDigitChars_cons, ih, denoted, List.length_cons, Nat.pow_succ', Nat.add_mul,
      Nat.add_assoc, Nat.mul_comm 10 read, Nat.mul_assoc]

/-- What was read before never gets less. -/
theorem le_ofDigitChars (digits : List Char) (read : Nat) :
    read ≤ Nat.ofDigitChars 10 digits read := by
  rw [ofDigitChars_eq_denoted]
  exact Nat.le_add_right_of_le (Nat.le_mul_of_pos_right read (Nat.pow_pos (by decide)))

theorem digit_lt_ten {digit : Char} (isDigit : digit.isDigit = true) :
    digit.toNat - '0'.toNat < 10 := by
  have greatest : digit.toNat ≤ '9'.toNat := (Char.isDigit_iff_toNat.mp isDigit).2
  exact Nat.lt_of_le_of_lt (Nat.sub_le_sub_right greatest _) (by decide)

end Text

/-! ### Digits one at a time -/

namespace Value

def ten : Value := ⟨10, by decide, by decide⟩

/-- Ten times a value and one more digit, if nothing on the way is out of range. -/
def extend? (value : Value) (digit : Char) : Option Value := do
  let tenfold ← value.mul? ten
  let unit ← ofInt? (digit.toNat - '0'.toNat : Nat)
  tenfold.add? unit

/-- The value of digits, found one digit at a time. -/
def accumulate? (digits : List Char) : Option Value := digits.foldlM extend? zero

/-- **One more digit is read exactly, or what is read is out of range.** -/
theorem extend?_eq {value : Value} {read : Nat} {digit : Char} (same : value.toInt = read)
    (isDigit : digit.isDigit = true) :
    value.extend? digit = ofInt? (10 * read + (digit.toNat - '0'.toNat) : Nat) := by
  have small := Text.digit_lt_ten isDigit
  unfold extend?
  generalize digit.toNat - '0'.toNat = digit at small
  cases product : value.mul? ten with
  | none =>
    -- ten times the value is beyond the range, and adding the digit does not bring it back
    have beyond := ofInt?_eq_none_iff.mp product
    refine (ofInt?_eq_none_iff.mpr (.inr ?_)).symm
    simp only [ten, same] at beyond
    omega
  | some tenfold =>
    have exact : tenfold.toInt = value.toInt * 10 := ofInt?_eq_some_iff.mp product
    obtain ⟨unit, isUnit⟩ : ∃ unit : Value, unit.toInt = digit :=
      ⟨⟨digit, by omega, by omega⟩, rfl⟩
    rw [Option.bind_eq_bind, Option.bind_some, ofInt?_eq_some_iff.mpr isUnit, Option.bind_some,
      add?, exact, same, isUnit]
    congr 1
    omega

/-- **Reading digits one at a time is reading all of them and looking at the range once.** -/
theorem foldlM_extend?_eq {digits : List Char} (numeral : ∀ digit ∈ digits, digit.isDigit = true)
    {value : Value} {read : Nat} (same : value.toInt = read) :
    digits.foldlM extend? value = ofInt? (Nat.ofDigitChars 10 digits read) := by
  induction digits generalizing value read with
  | nil =>
    rw [List.foldlM_nil, Nat.ofDigitChars_nil, ← same, ofInt?_toInt]
    rfl
  | cons digit others ih =>
    obtain ⟨isDigit, numeral⟩ := List.forall_mem_cons.mp numeral
    rw [List.foldlM_cons, extend?_eq same isDigit, Nat.ofDigitChars_cons]
    cases step : ofInt? (10 * read + (digit.toNat - '0'.toNat) : Nat) with
    | none =>
      have beyond := ofInt?_eq_none_iff.mp step
      have grows := Text.le_ofDigitChars others (10 * read + (digit.toNat - '0'.toNat))
      exact (ofInt?_eq_none_iff.mpr (.inr (by omega))).symm
    | some next => exact ih numeral (ofInt?_eq_some_iff.mp step)

/-- **The value of a numeral can be found one digit at a time.** -/
theorem accumulate?_eq {digits : List Char} (numeral : ∀ digit ∈ digits, digit.isDigit = true) :
    accumulate? digits = ofDigits? digits := foldlM_extend?_eq numeral rfl

example : accumulate? "0002147483647".toList = some greatest := by decide +kernel
example : accumulate? "2147483648".toList = none := by decide +kernel

/-- **The value of a numeral is the number that it denotes**, if that is not too great. -/
theorem toInt_ofDigits? (digits : List Char) :
    (ofDigits? digits).map toInt =
      if Text.denoted digits ≤ 2147483647 then some (Text.denoted digits : Int) else none := by
  rw [ofDigits?, Text.ofDigitChars_eq_denoted, Nat.zero_mul, Nat.zero_add]
  split
  · rename_i inRange
    have value : ofInt? (Text.denoted digits) = some ⟨Text.denoted digits, by omega, by omega⟩ :=
      ofInt?_eq_some_iff.mpr rfl
    rw [value, Option.map_some]
  · rename_i beyond
    rw [ofInt?_eq_none_iff.mpr (.inr (by omega)), Option.map_none]

end Value

/-! ### Values and complaints -/

namespace Token

/-- **The value of a token is exact**: a numeral has the number that it denotes, unless that is too
great, and no other token has a value. -/
inductive HasExactValue (token : Token) : Prop where
  | number (kind : token.kind = .number) (written : token.text ≠ "")
      (digits : ∀ char ∈ token.text.toList, char.isDigit = true)
      (denoted : token.value.map Value.toInt =
        if Text.denoted token.text.toList ≤ 2147483647 then
          some (Text.denoted token.text.toList : Int)
        else
          none)
      (accumulated : token.value = Value.accumulate? token.text.toList) :
      token.HasExactValue
  | other (kind : token.kind ≠ .number) (none : token.value = none) : token.HasExactValue

/-- Whether something is wrong with a token by itself. -/
def isFaulty (token : Token) : Bool :=
  token.kind = .invalid || (token.kind = .number && token.value = none)

/-- What is reported of a faulty token, and where. -/
inductive Complaint (token : Token) : Diagnostic → Prop where
  | unexpected {char : Char} (kind : token.kind = .invalid) (text : token.text.toList = [char]) :
      token.Complaint
        ⟨"unexpected character '" ++ char.toString ++ "' at position " ++ token.position.repr,
          token.span⟩
  | tooGreat (kind : token.kind = .number) (value : token.value = none) :
      token.Complaint
        ⟨"invalid number '" ++ token.text ++ "', valid range is [0, 2147483647]", token.span⟩

theorem value_of_mem_scan {position : Nat} {text : List Char} {token : Token}
    (member : token ∈ scan position text) :
    token.value = token.kind.value? token.text.toList := by
  fun_induction scan position text with
  | case1 position => cases member
  | case2 position first rest ih =>
    rcases List.mem_cons.mp member with rfl | later
    · rw [text_opened]
      rfl
    · exact ih later

/-- **Scanning gives exact values.** -/
theorem hasExactValue_of_mem_scan {position : Nat} {text : List Char} {token : Token}
    (member : token ∈ scan position text) : token.HasExactValue := by
  have value := value_of_mem_scan member
  have lexeme := hasLexeme_of_mem_scan member
  cases kind : token.kind with
  | number =>
    rw [kind] at value lexeme
    refine .number kind (text_ne_of_mem_scan member) lexeme ?_ ?_
    · rw [value]
      exact Value.toInt_ofDigits? token.text.toList
    · rw [value]
      exact (Value.accumulate?_eq lexeme).symm
  | _ =>
    rw [kind] at value
    exact .other (by rw [kind]; decide) value

/-- The greatest value, as it stands in the complaint about a numeral. -/
theorem message_numberOutOfRange (digits : String) :
    (LexFault.numberOutOfRange digits).message =
      "invalid number '" ++ digits ++ "', valid range is [0, 2147483647]" := by
  have range : "', valid range is [0, " ++ (Value.greatest.decimal ++ "]") =
      "', valid range is [0, 2147483647]" := by decide
  rw [← range, ← String.append_assoc, ← String.append_assoc]
  rfl

/-- The fault of a token that has a lexeme is a complaint about it, if there is one. -/
theorem complaint_of_fault? {token : Token} {fault : LexFault} (found : token.fault? = some fault)
    (lexeme : token.kind.HasLexeme token.text.toList) :
    token.isFaulty = true ∧
      token.Complaint (Located.diagnostic LexFault.message ⟨fault, token.span⟩) := by
  unfold fault? at found
  split at found
  · rename_i kind text
    cases found
    rw [kind, text] at lexeme
    obtain ⟨char, single, -⟩ := lexeme
    obtain ⟨rfl, rfl⟩ := List.cons.inj single
    exact ⟨by simp [isFaulty, kind], .unexpected kind text⟩
  · rename_i kind value
    cases found
    rw [Located.diagnostic, message_numberOutOfRange]
    exact ⟨by simp [isFaulty, kind, value], .tooGreat kind value⟩
  · cases found

/-- A token with some text and no fault is not faulty. -/
theorem isFaulty_of_fault? {token : Token} (faultless : token.fault? = none)
    (written : token.text ≠ "") : token.isFaulty = false := by
  rw [Bool.eq_false_iff]
  intro faulty
  simp only [isFaulty, Bool.or_eq_true, Bool.and_eq_true, decide_eq_true_eq] at faulty
  obtain ⟨first, more, spelled⟩ :=
    List.exists_cons_of_ne_nil (mt String.toList_eq_nil_iff.mp written)
  rcases faulty with kind | ⟨kind, value⟩
  · simp [fault?, kind, spelled] at faultless
  · simp [fault?, kind, value] at faultless

/-- **There is one complaint for each faulty token**, in their order. -/
theorem forall₂_complaint {tokens : List Token} (written : ∀ token ∈ tokens, token.text ≠ "")
    (lexemes : ∀ token ∈ tokens, token.kind.HasLexeme token.text.toList) :
    List.Forall₂ Complaint (tokens.filter (·.isFaulty))
      ((faults tokens).map (·.diagnostic LexFault.message)) := by
  induction tokens with
  | nil => exact .nil
  | cons token others ih =>
    obtain ⟨first, written⟩ := List.forall_mem_cons.mp written
    obtain ⟨lexeme, lexemes⟩ := List.forall_mem_cons.mp lexemes
    have behind := ih written lexemes
    cases found : token.fault? with
    | none =>
      rw [List.filter_cons_of_neg (by simp [isFaulty_of_fault? found first]), faults,
        List.filterMap_cons_none (by rw [found, Option.map_none])]
      exact behind
    | some fault =>
      obtain ⟨faulty, complaint⟩ := complaint_of_fault? found lexeme
      rw [List.filter_cons_of_pos faulty, faults,
        List.filterMap_cons_some (by rw [found, Option.map_some]), List.map_cons]
      exact .cons complaint behind

/-- **What is reported of scanned tokens does not overlap**, and each starts behind the one
before. -/
theorem pairwise_faults_scan (position : Nat) (text : List Char) :
    (faults (scan position text)).Pairwise fun earlier later =>
      earlier.span.stop ≤ later.span.start ∧ earlier.span.start < later.span.start := by
  refine List.pairwise_filterMap.mpr ?_
  refine (pairwise_scan position text).imp_of_mem fun {token next} member _ behind => ?_
  intro earlier found later found'
  obtain ⟨fault, -, rfl⟩ := Option.map_eq_some_iff.mp found
  obtain ⟨fault', -, rfl⟩ := Option.map_eq_some_iff.mp found'
  exact ⟨behind, Nat.lt_of_lt_of_le (position_lt_stop (text_ne_of_mem_scan member)) behind⟩

end Token

/-! ### Lines -/

/-- **Lexing finds exact values and reports exactly what is faulty.** Each numeral has the value
that it denotes unless that is too great, and no other token has one. There is one diagnostic for
each faulty token, in the order of the line, about stretches that do not overlap and start one
behind the other. -/
theorem tokenize_exact (text : String) :
    (∀ token ∈ (tokenize text).1, token.HasExactValue) ∧
      List.Forall₂ Token.Complaint ((tokenize text).1.filter (·.isFaulty))
        ((tokenize text).2.map (·.diagnostic LexFault.message)) ∧
      ((tokenize text).2.map (·.diagnostic LexFault.message)).Pairwise fun earlier later =>
        earlier.span.stop ≤ later.span.start ∧ earlier.span.start < later.span.start := by
  rw [tokenize_eq_scan]
  refine ⟨fun token member => ?_, ?_, List.pairwise_map.mpr (Token.pairwise_faults_scan _ _)⟩
  · rcases List.mem_append.mp member with scanned | ending
    · exact Token.hasExactValue_of_mem_scan scanned
    · rw [List.mem_singleton.mp ending]
      exact .other Token.Kind.noConfusion rfl
  · have ending : (Token.endOfFile text.utf8ByteSize).isFaulty = false := rfl
    rw [List.filter_append, List.filter_singleton, ending, cond_false, List.append_nil]
    exact Token.forall₂_complaint (fun _ => Token.text_ne_of_mem_scan)
      fun _ => Token.hasLexeme_of_mem_scan

end IntCalc
