/-
**The tokens of a line divide it, and there is only one way to do so.**

The text of a token is a lexeme of its kind (`Token.Kind.HasLexeme`): digits, blanks, or a single
character that has a kind to itself or has no place at all. Tokens divide a text if their texts are
such lexemes and make up the text, each token stands where the ones before it end, and no two
neighbours are runs of the same kind, so no run could be longer (`Token.Divide`).

Scanning divides a text in this way (`divide_scan`), and nothing else does (`Divide.shapes_eq`).
Both go token by token (`divide_cons_iff`). The reason is one fact about lexemes: the first
character fixes the kind, and the others are exactly those that continue it (`Kind.hasLexeme_iff`).
So a run ends where the next token starts, since a character that continued the run would open a
token of its kind.
-/
import IntCalc.Proofs.Scan
import Mathlib.Data.List.Chain

namespace IntCalc

namespace Token

/-! ### Lexemes -/

/-- A token of this kind can have the given text. -/
def Kind.HasLexeme : Kind → List Char → Prop
  | number, text => ∀ char ∈ text, char.isDigit = true
  | whitespace, text => ∀ char ∈ text, Text.isBlank char = true
  | plus, text => text = ['+']
  | minus, text => text = ['-']
  | star, text => text = ['*']
  | slash, text => text = ['/']
  | openParen, text => text = ['(']
  | closeParen, text => text = [')']
  | invalid, text =>
    ∃ char, text = [char] ∧ char.isDigit = false ∧ Text.isBlank char = false ∧
      char ∉ ['+', '-', '*', '/', '(', ')']
  | endOfFile, _ => False

/-- A kind whose tokens are runs of characters. -/
def Kind.IsRun (kind : Kind) : Prop := kind = .number ∨ kind = .whitespace

/-- Only runs go on, and with the characters that would open them. -/
theorem Kind.continues_iff {kind : Kind} {char : Char} :
    kind.continues char = true ↔ kind.IsRun ∧ ofChar char = kind := by
  constructor
  · intro goesOn
    cases kind with
    | number => exact ⟨.inl rfl, ofChar_eq_number_iff.mpr goesOn⟩
    | whitespace => exact ⟨.inr rfl, ofChar_eq_whitespace_iff.mpr goesOn⟩
    | plus | minus | star | slash | openParen | closeParen | invalid | endOfFile => cases goesOn
  · rintro ⟨run, rfl⟩
    unfold ofChar at run ⊢
    by_cases digit : char.isDigit = true
    · rw [if_pos digit]
      exact digit
    · by_cases blank : Text.isBlank char = true
      · rw [if_neg digit, if_pos blank]
        exact blank
      · rw [if_neg digit, if_neg blank] at run
        split at run <;> rcases run with run | run <;> cases run

/-- A character is a lexeme of the kind that it opens. -/
theorem Kind.hasLexeme_ofChar (char : Char) : (ofChar char).HasLexeme [char] := by
  unfold ofChar
  by_cases digit : char.isDigit = true
  · rw [if_pos digit]
    exact List.forall_mem_singleton.mpr digit
  · by_cases blank : Text.isBlank char = true
    · rw [if_neg digit, if_pos blank]
      exact List.forall_mem_singleton.mpr blank
    · rw [if_neg digit, if_neg blank]
      split
      case h_7 =>
        refine ⟨char, rfl, Bool.eq_false_iff.mpr digit, Bool.eq_false_iff.mpr blank, ?_⟩
        simp_all
      all_goals rfl

theorem Kind.ofChar_of_hasLexeme {kind : Kind} {first : Char} {more : List Char}
    (lexeme : kind.HasLexeme (first :: more)) :
    ofChar first = kind ∧ ∀ char ∈ more, kind.continues char = true := by
  cases kind with
  | number =>
    obtain ⟨digit, digits⟩ := List.forall_mem_cons.mp lexeme
    exact ⟨ofChar_eq_number_iff.mpr digit, digits⟩
  | whitespace =>
    obtain ⟨blank, blanks⟩ := List.forall_mem_cons.mp lexeme
    exact ⟨ofChar_eq_whitespace_iff.mpr blank, blanks⟩
  | invalid =>
    obtain ⟨char, single, notDigit, notBlank, unknown⟩ := lexeme
    obtain ⟨rfl, rfl⟩ := List.cons.inj single
    refine ⟨?_, List.forall_mem_nil _⟩
    unfold ofChar
    rw [notDigit, notBlank]
    simp_all
  | endOfFile => exact lexeme.elim
  | plus | minus | star | slash | openParen | closeParen =>
    obtain ⟨rfl, rfl⟩ := List.cons.inj lexeme
    exact ⟨by decide, List.forall_mem_nil _⟩

/-- **A lexeme is a character and what continues it**, and its kind is the one that the character
opens. -/
theorem Kind.hasLexeme_iff {kind : Kind} {first : Char} {more : List Char} :
    kind.HasLexeme (first :: more) ↔
      ofChar first = kind ∧ ∀ char ∈ more, kind.continues char = true := by
  refine ⟨ofChar_of_hasLexeme, ?_⟩
  rintro ⟨rfl, goesOn⟩
  cases more with
  | nil => exact hasLexeme_ofChar first
  | cons second others =>
    -- something goes on, so the kind is a run, and a run goes on with its first character as well
    obtain ⟨run, -⟩ := continues_iff.mp (goesOn second List.mem_cons_self)
    have all : ∀ char ∈ first :: second :: others, (ofChar first).continues char = true :=
      List.forall_mem_cons.mpr ⟨continues_iff.mpr ⟨run, rfl⟩, goesOn⟩
    rcases run with number | whitespace
    · rw [number] at all ⊢
      exact all
    · rw [whitespace] at all ⊢
      exact all

/-! ### Divisions -/

/-- The number of bytes that some tokens take together. -/
def bytes (tokens : List Token) : Nat :=
  tokens.foldr (fun token others => token.text.utf8ByteSize + others) 0

/-- **Tokens divide a text that starts at a position.** -/
structure Divide (position : Nat) (text : List Char) (tokens : List Token) : Prop where
  nonempty : ∀ token ∈ tokens, token.text ≠ ""
  whole : tokens.flatMap (·.text.toList) = text
  placed : ∀ earlier token later, tokens = earlier ++ token :: later →
    token.position = position + bytes earlier
  lexemes : ∀ token ∈ tokens, token.kind.HasLexeme token.text.toList
  maximal : tokens.IsChain fun token next => token.kind.IsRun → next.kind ≠ token.kind

/-- What a token says about a text: everything but its value. -/
def shape (token : Token) : Kind × Nat × String := (token.kind, token.position, token.text)

theorem divide_nil_iff {position : Nat} {text : List Char} :
    Divide position text [] ↔ text = [] := by
  constructor
  · intro divide
    exact divide.whole.symm
  · rintro rfl
    refine ⟨List.forall_mem_nil _, rfl, fun earlier token later split => ?_, List.forall_mem_nil _,
      .nil⟩
    simp at split

/-- **A division token by token**: the first token takes a front of the text, and the others divide
what follows from where it stops. -/
theorem divide_cons_iff {position : Nat} {text : List Char} {token : Token} {others : List Token} :
    Divide position text (token :: others) ↔
      token.text ≠ "" ∧ token.position = position ∧ token.kind.HasLexeme token.text.toList ∧
        (∀ next ∈ others.head?, token.kind.IsRun → next.kind ≠ token.kind) ∧
        ∃ rest, text = token.text.toList ++ rest ∧ Divide token.span.stop rest others := by
  constructor
  · intro divide
    obtain ⟨written, nonempty⟩ := List.forall_mem_cons.mp divide.nonempty
    obtain ⟨lexeme, lexemes⟩ := List.forall_mem_cons.mp divide.lexemes
    obtain ⟨ends, maximal⟩ := List.isChain_cons.mp divide.maximal
    have here : token.position = position := divide.placed [] token others rfl
    have whole := divide.whole.symm
    rw [List.flatMap_cons] at whole
    refine ⟨written, here, lexeme, ends, others.flatMap (·.text.toList), whole, nonempty, rfl,
      fun earlier later after split => ?_, lexemes, maximal⟩
    have place := divide.placed (token :: earlier) later after (by rw [split, List.cons_append])
    rw [place, ← here, Span.stop, start_span, Nat.add_assoc]
    rfl
  · rintro ⟨written, rfl, lexeme, ends, rest, rfl, divide⟩
    refine ⟨List.forall_mem_cons.mpr ⟨written, divide.nonempty⟩, ?_, ?_,
      List.forall_mem_cons.mpr ⟨lexeme, divide.lexemes⟩,
      List.isChain_cons.mpr ⟨ends, divide.maximal⟩⟩
    · rw [List.flatMap_cons, divide.whole]
    · intro earlier later after split
      rcases List.cons_eq_append_iff.mp split with ⟨rfl, same⟩ | ⟨front, rfl, split⟩
      · rw [(List.cons.inj same).1]
        rfl
      · rw [divide.placed front later after (List.cons.inj split).2, Span.stop, start_span,
          Nat.add_assoc]
        rfl

/-- The first token of a division has the kind that the first character opens. -/
theorem Divide.kind_head {position : Nat} {text : List Char} {tokens : List Token}
    (divide : Divide position text tokens) :
    tokens.head?.map Token.kind = text.head?.map Kind.ofChar := by
  cases tokens with
  | nil =>
    rw [divide_nil_iff.mp divide]
    rfl
  | cons token others =>
    obtain ⟨written, -, lexeme, -, rest, rfl, -⟩ := divide_cons_iff.mp divide
    obtain ⟨first, more, spelled⟩ :=
      List.exists_cons_of_ne_nil (mt String.toList_eq_nil_iff.mp written)
    rw [spelled] at lexeme ⊢
    rw [List.cons_append, List.head?_cons, List.head?_cons, Option.map_some, Option.map_some,
      (Kind.hasLexeme_iff.mp lexeme).1]

/-! ### Scanning divides a text -/

theorem text_opened (position : Nat) (first : Char) (rest : List Char) :
    (opened position first rest).text.toList =
      first :: rest.takeWhile (Kind.ofChar first).continues :=
  String.toList_ofList

theorem hasLexeme_opened (position : Nat) (first : Char) (rest : List Char) :
    (Kind.ofChar first).HasLexeme (opened position first rest).text.toList := by
  rw [text_opened]
  exact Kind.hasLexeme_iff.mpr ⟨rfl, fun char member => List.mem_takeWhile_imp member⟩

/-- **Scanning divides a text.** -/
theorem divide_scan (position : Nat) (text : List Char) :
    Divide position text (scan position text) := by
  fun_induction scan position text with
  | case1 position => exact divide_nil_iff.mpr rfl
  | case2 position first rest ih =>
    refine divide_cons_iff.mpr ⟨?_, rfl, hasLexeme_opened position first rest,
      fun next head run same => ?_, rest.dropWhile (Kind.ofChar first).continues, ?_, ih⟩
    · have member : opened position first rest ∈ scan position (first :: rest) := by
        rw [scan]
        exact List.mem_cons_self
      exact text_ne_of_mem_scan member
    · -- the next token of the same run would open with a character that the run goes on with
      have opens := ih.kind_head
      rw [Option.mem_def.mp head, Option.map_some] at opens
      obtain ⟨char, follows, kind⟩ := Option.map_eq_some_iff.mp opens.symm
      have ends := List.head?_dropWhile_not (Kind.ofChar first).continues rest
      rw [follows] at ends
      have goesOn : (Kind.ofChar first).continues char = true :=
        Kind.continues_iff.mpr ⟨run, kind.trans same⟩
      exact absurd (goesOn.symm.trans ends) (by decide)
    · rw [text_opened, List.cons_append, List.takeWhile_append_dropWhile]

theorem hasLexeme_of_mem_scan {position : Nat} {text : List Char} {token : Token}
    (member : token ∈ scan position text) : token.kind.HasLexeme token.text.toList :=
  (divide_scan position text).lexemes token member

/-! ### Nothing else does -/

/-- **A text is divided in one way only**, the one in which it is scanned. -/
theorem Divide.shapes_eq {position : Nat} {text : List Char} {tokens : List Token}
    (divide : Divide position text tokens) :
    tokens.map shape = (scan position text).map shape := by
  induction tokens generalizing position text with
  | nil =>
    rw [divide_nil_iff.mp divide, scan]
  | cons token others ih =>
    obtain ⟨written, rfl, lexeme, ends, rest, rfl, divided⟩ := divide_cons_iff.mp divide
    obtain ⟨first, more, spelled⟩ :=
      List.exists_cons_of_ne_nil (mt String.toList_eq_nil_iff.mp written)
    rw [spelled] at lexeme
    obtain ⟨kind, goesOn⟩ := Kind.hasLexeme_iff.mp lexeme
    -- the run ends with the token, so scanning takes the same characters
    have stops : ∀ char ∈ rest.head?, token.kind.continues char = false := by
      intro char head
      have opens := divided.kind_head
      rw [Option.mem_def.mp head, Option.map_some] at opens
      obtain ⟨next, follows, kind⟩ := Option.map_eq_some_iff.mp opens
      rw [Bool.eq_false_iff]
      intro further
      obtain ⟨run, same⟩ := Kind.continues_iff.mp further
      exact ends next follows run (kind.trans same)
    obtain ⟨taken, left⟩ :=
      @Text.takeWhile_append_of_ends token.kind.continues more rest fun _ => stops
    rw [List.takeWhile_eq_self_iff.mpr goesOn] at taken
    rw [List.dropWhile_eq_nil_iff.mpr goesOn, List.nil_append] at left
    have same : (opened token.position first (more ++ rest)).shape = token.shape := by
      simp only [shape, opened, kind, taken, ← spelled, String.ofList_toList]
    have stop : (opened token.position first (more ++ rest)).span.stop = token.span.stop := by
      simp only [Span.stop, span, opened, kind, taken, ← spelled, String.ofList_toList]
    rw [spelled, List.cons_append, scan, List.map_cons, List.map_cons, same, stop, kind, left,
      ih divided]

end Token

/-! ### Lines -/

/-- **The tokens of a line divide it, and nothing else does.** They are followed by one token for
the end of the line. Whatever divides the line has the same kinds, positions and texts. -/
theorem tokenize_divides (text : String) :
    ∃ tokens, (tokenize text).1 = tokens ++ [.endOfFile text.utf8ByteSize] ∧
      Token.Divide 0 text.toList tokens ∧
      ∀ others, Token.Divide 0 text.toList others →
        others.map Token.shape = tokens.map Token.shape := by
  refine ⟨Token.scan 0 text.toList, ?_, Token.divide_scan 0 text.toList, fun others divide => ?_⟩
  · rw [tokenize_eq_scan]
  · exact divide.shapes_eq

end IntCalc
