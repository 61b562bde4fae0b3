/-
**Characters that are foreign to expressions act like blanks.**

If every character that lexes as an invalid token is replaced by as many spaces as it has bytes
(`blanked`), then the line has the same tree, with the same places, and the same diagnostics, but
for those that name such a character (`parse_blanked`).

The spaces may run together with blanks next to them, so the two lines do not have the same tokens.
But up to blanks the tokens of the new line are those of the old one that are not invalid
(`Token.visible_scan_blankForeign`): a replaced character parts the texts around it as before, and
the spaces only move what follows, by the bytes of the character.
-/
import IntCalc.Proofs.Concatenation
import IntCalc.Proofs.Line
import IntCalc.Proofs.Partition

namespace IntCalc

/-! ### Blanked texts -/

/-- Whether a fault is about a character that has no place in an expression. -/
def LexFault.isForeign : LexFault → Bool
  | unexpectedCharacter _ _ => true
  | numberOutOfRange _ => false

/-- The text of a token, but spaces for an invalid one, as many as it has bytes. -/
def Token.blanked (token : Token) : List Char :=
  if token.kind = .invalid then List.replicate token.text.utf8ByteSize ' ' else token.text.toList

/-- A line with spaces in place of the characters that lex as invalid tokens. -/
def blanked (text : String) : String := String.ofList ((tokenize text).1.flatMap Token.blanked)

namespace Text

/-- A character, but spaces for one that opens an invalid token, as many as it has bytes. -/
def blankForeign (char : Char) : List Char :=
  if Token.Kind.ofChar char = .invalid then List.replicate char.utf8Size ' ' else [char]

theorem blankForeign_of_invalid {char : Char} (foreign : Token.Kind.ofChar char = .invalid) :
    blankForeign char = List.replicate char.utf8Size ' ' :=
  if_pos foreign

theorem blankForeign_of_ne {char : Char} (known : Token.Kind.ofChar char ≠ .invalid) :
    blankForeign char = [char] :=
  if_neg known

/-- A text without foreign characters is left as it is. -/
theorem flatMap_blankForeign_of_ne {text : List Char}
    (known : ∀ char ∈ text, Token.Kind.ofChar char ≠ .invalid) :
    text.flatMap blankForeign = text := by
  induction text with
  | nil => rfl
  | cons first rest ih =>
    obtain ⟨here, others⟩ := List.forall_mem_cons.mp known
    rw [List.flatMap_cons, blankForeign_of_ne here, ih others, List.singleton_append]

theorem byteLength_spaces (count : Nat) : byteLength (List.replicate count ' ') = count := by
  induction count with
  | zero => rfl
  | succ count ih =>
    have size : ' '.utf8Size = 1 := rfl
    rw [List.replicate_succ, byteLength_cons, ih, size, Nat.add_comm]

/-- The spaces take as many bytes as the characters in whose place they are. -/
theorem byteLength_flatMap_blankForeign (text : List Char) :
    byteLength (text.flatMap blankForeign) = byteLength text := by
  induction text with
  | nil => rfl
  | cons first rest ih =>
    have here : byteLength (blankForeign first) = first.utf8Size := by
      by_cases foreign : Token.Kind.ofChar first = .invalid
      · rw [blankForeign_of_invalid foreign, byteLength_spaces]
      · rw [blankForeign_of_ne foreign]
        rfl
    rw [List.flatMap_cons, byteLength_append, here, ih, byteLength_cons]

/-- No digit is put in. -/
theorem eq_of_mem_blankForeign {char digit : Char} (member : digit ∈ blankForeign char)
    (isDigit : digit.isDigit = true) : digit = char := by
  by_cases foreign : Token.Kind.ofChar char = .invalid
  · rw [blankForeign_of_invalid foreign] at member
    rw [List.eq_of_mem_replicate member] at isDigit
    cases isDigit
  · rw [blankForeign_of_ne foreign] at member
    exact List.mem_singleton.mp member

/-- A digit in front of a blanked text is in front of the text. -/
theorem mem_head?_of_isDigit {text : List Char} {digit : Char}
    (starts : digit ∈ (text.flatMap blankForeign).head?) (isDigit : digit.isDigit = true) :
    digit ∈ text.head? := by
  cases text with
  | nil => cases starts
  | cons first rest =>
    have nonempty : blankForeign first ≠ [] := by
      by_cases foreign : Token.Kind.ofChar first = .invalid
      · have positive := Char.utf8Size_pos first
        rw [blankForeign_of_invalid foreign, Ne, List.replicate_eq_nil_iff]
        omega
      · rw [blankForeign_of_ne foreign]
        exact List.cons_ne_nil _ _
    rw [List.flatMap_cons, List.head?_append_of_ne_nil _ nonempty] at starts
    rw [eq_of_mem_blankForeign (List.mem_of_mem_head? starts) isDigit]
    rfl

end Text

/-! ### The tokens of blanked texts -/

namespace Token

/-- The characters of an opened token are of its kind. -/
theorem ofChar_of_mem_opened {first char : Char} {rest : List Char}
    (member : char ∈ first :: rest.takeWhile (Kind.ofChar first).continues) :
    Kind.ofChar char = Kind.ofChar first := by
  rcases List.mem_cons.mp member with rfl | inside
  · rfl
  · exact (Kind.continues_iff.mp (List.mem_takeWhile_imp inside)).2

/-- An invalid token is a single character. -/
theorem takeWhile_of_invalid {first : Char} (foreign : Kind.ofChar first = .invalid)
    (rest : List Char) : rest.takeWhile (Kind.ofChar first).continues = [] := by
  rw [foreign]
  cases rest <;> rfl

/-- Blanking an opened token blanks its characters. -/
theorem blanked_opened (position : Nat) (first : Char) (rest : List Char) :
    (opened position first rest).blanked =
      (first :: rest.takeWhile (Kind.ofChar first).continues).flatMap Text.blankForeign := by
  unfold blanked
  by_cases foreign : Kind.ofChar first = .invalid
  · have kind : (opened position first rest).kind = .invalid := foreign
    have single : (opened position first rest).text.utf8ByteSize = first.utf8Size := by
      rw [Text.utf8ByteSize_eq_byteLength, text_opened, takeWhile_of_invalid foreign]
      rfl
    rw [if_pos kind, single, takeWhile_of_invalid foreign, List.flatMap_singleton,
      Text.blankForeign_of_invalid foreign]
  · have kind : (opened position first rest).kind ≠ .invalid := foreign
    rw [if_neg kind, text_opened, Text.flatMap_blankForeign_of_ne fun char member =>
      (ofChar_of_mem_opened member).trans_ne foreign]

/-- Blanking the tokens of a text blanks its characters. -/
theorem flatMap_blanked_scan (position : Nat) (text : List Char) :
    (scan position text).flatMap blanked = text.flatMap Text.blankForeign := by
  fun_induction scan position text with
  | case1 position => rfl
  | case2 position first rest ih =>
    rw [List.flatMap_cons, blanked_opened, ih, ← List.flatMap_append, List.cons_append,
      List.takeWhile_append_dropWhile]

/-- No numeral goes on where it did not before. -/
theorem numeralsApart_blankForeign (first : Char) (rest : List Char) :
    Text.NumeralsApart
      ((first :: rest.takeWhile (Kind.ofChar first).continues).flatMap Text.blankForeign)
      ((rest.dropWhile (Kind.ofChar first).continues).flatMap Text.blankForeign) := by
  rintro last ends next starts ⟨digit, digit'⟩
  obtain ⟨char, inside, member⟩ := List.mem_flatMap.mp (List.mem_of_getLast? ends)
  obtain rfl := Text.eq_of_mem_blankForeign member digit
  have number : Kind.ofChar first = .number :=
    (ofChar_of_mem_opened inside).symm.trans (Kind.ofChar_eq_number_iff.mpr digit)
  have follows := Text.mem_head?_of_isDigit starts digit'
  have stops := List.head?_dropWhile_not (Kind.ofChar first).continues rest
  rw [Option.mem_def.mp follows, number] at stops
  exact absurd (digit'.symm.trans stops) (by decide)

/-- A single token of a blanked text is the token, or nothing but blanks. -/
theorem visible_scan_opened (position : Nat) (first : Char) (rest : List Char) :
    visible (scan position
        ((first :: rest.takeWhile (Kind.ofChar first).continues).flatMap Text.blankForeign)) =
      (visible [opened position first rest]).filter (·.kind ≠ .invalid) := by
  by_cases foreign : Kind.ofChar first = .invalid
  · have dropped : (visible [opened position first rest]).filter (·.kind ≠ .invalid) = [] := by
      simp [visible, opened, foreign]
    have spaces : ∀ char ∈ List.replicate first.utf8Size ' ', Text.isBlank char = true :=
      fun char member => by rw [List.eq_of_mem_replicate member]; decide
    have alone := visible_scan_blanks position spaces []
    rw [takeWhile_of_invalid foreign, List.flatMap_singleton, Text.blankForeign_of_invalid foreign,
      dropped]
    rwa [List.append_nil, scan] at alone
  · have kept : (visible [opened position first rest]).filter (·.kind ≠ .invalid) =
        visible [opened position first rest] :=
      List.filter_eq_self.mpr fun token member => by
        rw [List.mem_singleton.mp (List.mem_of_mem_filter member)]
        exact decide_eq_true foreign
    rw [kept, Text.flatMap_blankForeign_of_ne fun char member =>
      (ofChar_of_mem_opened member).trans_ne foreign,
      scan_run position first _ fun char member => List.mem_takeWhile_imp member]
    rfl

/-- **Up to blanks, the tokens of a blanked text are those of the text** that are not invalid. -/
theorem visible_scan_blankForeign (position : Nat) (text : List Char) :
    visible (scan position (text.flatMap Text.blankForeign)) =
      (visible (scan position text)).filter (·.kind ≠ .invalid) := by
  fun_induction scan position text with
  | case1 position =>
    rw [List.flatMap_nil, scan]
    rfl
  | case2 position first rest ih =>
    have parts : (first :: rest).flatMap Text.blankForeign =
        (first :: rest.takeWhile (Kind.ofChar first).continues).flatMap Text.blankForeign ++
          (rest.dropWhile (Kind.ofChar first).continues).flatMap Text.blankForeign := by
      rw [← List.flatMap_append, List.cons_append, List.takeWhile_append_dropWhile]
    rw [parts, visible_scan_append position (numeralsApart_blankForeign first rest),
      visible_scan_opened, Text.byteLength_flatMap_blankForeign, ← stop_opened, ih,
      ← List.filter_append, ← visible_append, List.singleton_append]

/-- A fault names a character exactly if its token is invalid. -/
theorem isForeign_of_fault? {token : Token} {fault : LexFault}
    (found : token.fault? = some fault) : fault.isForeign = decide (token.kind = .invalid) := by
  unfold fault? at found
  split at found
  · rename_i foreign _
    cases found
    simp [LexFault.isForeign, foreign]
  · rename_i isNumber _
    cases found
    simp [LexFault.isForeign, isNumber]
  · cases found

/-- The faults of tokens that are not invalid are those that name no character. -/
theorem faults_filter_ne_invalid (tokens : List Token) :
    faults (tokens.filter (·.kind ≠ .invalid)) =
      (faults tokens).filter (!·.value.isForeign) := by
  unfold faults
  rw [List.filterMap_filter, List.filter_filterMap]
  refine List.filterMap_congr fun token _ => ?_
  cases found : token.fault? with
  | none => simp
  | some fault =>
    have foreign := isForeign_of_fault? found
    by_cases invalid : token.kind = .invalid <;> simp [invalid, foreign, Option.filter_some]

end Token

/-! ### Blanked lines -/

theorem toList_blanked (text : String) :
    (blanked text).toList = text.toList.flatMap Text.blankForeign := by
  have ended (position : Nat) : (Token.endOfFile position).blanked = [] := rfl
  rw [blanked, String.toList_ofList, tokenize_eq_scan, List.flatMap_append,
    Token.flatMap_blanked_scan, List.flatMap_singleton, ended, List.append_nil]

theorem utf8ByteSize_blanked (text : String) : (blanked text).utf8ByteSize = text.utf8ByteSize := by
  rw [Text.utf8ByteSize_eq_byteLength, toList_blanked, Text.byteLength_flatMap_blankForeign,
    ← Text.utf8ByteSize_eq_byteLength]

theorem significant_blanked (text : String) : significant (blanked text) = significant text := by
  rw [significant_eq_scan, significant_eq_scan, toList_blanked, ← Token.filter_significant_visible,
    Token.visible_scan_blankForeign, List.filter_filter,
    ← Token.filter_significant_visible (Token.scan 0 text.toList)]
  refine List.filter_congr fun token _ => ?_
  cases kind : token.kind <;> simp [Token.isSignificant, Token.Kind.isSignificant, kind]

theorem lexFaults_blanked (text : String) :
    (tokenize (blanked text)).2 = (tokenize text).2.filter (!·.value.isForeign) := by
  rw [tokenize_eq_scan, tokenize_eq_scan, toList_blanked, ← Token.faults_visible,
    Token.visible_scan_blankForeign, Token.faults_filter_ne_invalid, Token.faults_visible]

/-- The parser does not tell a blanked line from the line. -/
theorem lineStart_blanked (text : String) : lineStart (blanked text) = lineStart text := by
  rw [lineStart, lineStart, significant_blanked, utf8ByteSize_blanked]

/-! ### Diagnostics that name a character -/

/-- Whether a diagnostic says that a character has no place in an expression. -/
def Diagnostic.namesCharacter (diagnostic : Diagnostic) : Bool :=
  "unexpected character ".toList.isPrefixOf diagnostic.message.toList

/-- Of the messages about tokens, those on foreign characters name one. -/
theorem LexFault.namesCharacter_diagnostic (fault : Located LexFault) :
    (fault.diagnostic message).namesCharacter = fault.value.isForeign := by
  obtain ⟨cause, span⟩ := fault
  cases cause with
  | unexpectedCharacter char position =>
    show "unexpected character ".toList.isPrefixOf ("unexpected character '" ++ char.toString ++
      "' at position " ++ position.repr).toList = true
    simp only [String.toList_append, List.append_assoc]
    rfl
  | numberOutOfRange digits =>
    show "unexpected character ".toList.isPrefixOf ("invalid number '" ++ digits ++
      "', valid range is [0, " ++ Value.greatest.decimal ++ "]").toList = false
    simp only [String.toList_append, List.append_assoc]
    rfl

/-- No message about the order of tokens names a character. -/
theorem ParseFault.namesCharacter_diagnostic (fault : Located ParseFault) :
    (fault.diagnostic message).namesCharacter = false := by
  obtain ⟨cause, span⟩ := fault
  cases cause with
  | expectedExpression found =>
    show "unexpected character ".toList.isPrefixOf
      ("expected expression, got " ++ found.name).toList = false
    rw [String.toList_append]
    rfl
  | expectedCloseParen found =>
    show "unexpected character ".toList.isPrefixOf
      ("expected ')', got " ++ found.name).toList = false
    rw [String.toList_append]
    rfl
  | trailingInput =>
    show "unexpected character ".toList.isPrefixOf "unexpected trailing input".toList = false
    decide
  | tooDeep =>
    show "unexpected character ".toList.isPrefixOf
      ("expression nests deeper than " ++ maxLevels.repr ++ " levels").toList = false
    simp only [String.toList_append, List.append_assoc]
    rfl
  | tooLong =>
    show "unexpected character ".toList.isPrefixOf
      ("expression has more than " ++ maxOperators.repr ++ " operators").toList = false
    simp only [String.toList_append, List.append_assoc]
    rfl

/-- **Characters that are foreign to expressions act like blanks.** With spaces in place of every
character that lexes as an invalid token, as many as it has bytes, a line has the same tree, and the
same diagnostics but for those that name such a character. -/
theorem parse_blanked (text : String) :
    (parse (blanked text)).root = (parse text).root ∧
      (parse (blanked text)).diagnostics =
        (parse text).diagnostics.filter (!·.namesCharacter) := by
  have root : (parse (blanked text)).root = (parse text).root :=
    congrArg (fun start => ((Parser.expression maxLevels).run .lowest start).1)
      (lineStart_blanked text)
  have faults : (parse (blanked text)).parseFaults = (parse text).parseFaults :=
    congrArg (fun start =>
      ((Parser.expression maxLevels).run .lowest start).2.reportTrailing.faults.toList)
      (lineStart_blanked text)
  refine ⟨root, ?_⟩
  rw [ParsedLine.diagnostics, ParsedLine.diagnostics, faults, lexFaults_parse, lexFaults_parse,
    lexFaults_blanked, List.filter_append, List.filter_map, List.filter_map]
  have lexical : (!·.namesCharacter) ∘ (·.diagnostic LexFault.message) =
      fun fault : Located LexFault => !fault.value.isForeign := by
    funext fault
    rw [Function.comp_apply, LexFault.namesCharacter_diagnostic]
  have grammatical : (parse text).parseFaults.filter
      ((!·.namesCharacter) ∘ (·.diagnostic ParseFault.message)) = (parse text).parseFaults :=
    List.filter_eq_self.mpr fun fault _ => by
      rw [Function.comp_apply, ParseFault.namesCharacter_diagnostic]
      rfl
  rw [lexical, grammatical]

end IntCalc
