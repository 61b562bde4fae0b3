/-
**Lexing as a recursion on the text.**

`Token.scan` gives the tokens of a text that starts at some position, without the one for its end:
the first character opens a token, the characters that continue it go with it, and the rest is
scanned from where the token stops. Lexing a line is scanning it from position zero
(`tokenize_eq_scan`).

A text may be scanned in two parts if no run of digits or blanks goes on across the seam
(`scan_append`). So the tokens of a text are found piece by piece: a piece of blanks has no
significant token, and a numeral or a symbol has one (`Lexes`).
-/
import IntCalc.Token.Lexer
import Mathlib.Data.List.TakeWhile

namespace IntCalc

/-! ### Scanning -/

namespace Token

/-- The token that a character opens, with the characters after it that continue it. -/
def opened (position : Nat) (first : Char) (rest : List Char) : Token :=
  let kind := Kind.ofChar first
  let lexeme := first :: rest.takeWhile kind.continues
  ⟨kind, position, String.ofList lexeme, kind.value? lexeme⟩

/-- The tokens of a text that starts at a position. -/
def scan (position : Nat) : List Char → List Token
  | [] => []
  | first :: rest =>
    opened position first rest ::
      scan (opened position first rest).span.stop (rest.dropWhile (Kind.ofChar first).continues)
termination_by text => text.length
decreasing_by
  exact Nat.lt_succ_of_le (List.dropWhile_suffix _).length_le

/-- The token of an operator or a parenthesis. -/
def ofSymbol (char : Char) (position : Nat) : Token :=
  ⟨.ofChar char, position, String.ofList [char], none⟩

def faults (tokens : List Token) : List (Located LexFault) :=
  tokens.filterMap fun token => token.fault?.map (⟨·, token.span⟩)

theorem faults_cons (token : Token) (tokens : List Token) :
    faults (token :: tokens) = faults [token] ++ faults tokens := by
  rw [faults, faults, faults, ← List.filterMap_append, List.singleton_append]

theorem stop_opened (position : Nat) (first : Char) (rest : List Char) :
    (opened position first rest).span.stop =
      position + Text.byteLength (first :: rest.takeWhile (Kind.ofChar first).continues) := by
  simp [opened, span, Span.stop, Text.utf8ByteSize_eq_byteLength, String.toList_ofList]

/-- What follows an opened token follows it from where it stops. -/
theorem stop_opened_add (position : Nat) (first : Char) (rest : List Char) :
    (opened position first rest).span.stop +
        Text.byteLength (rest.dropWhile (Kind.ofChar first).continues) =
      position + Text.byteLength (first :: rest) := by
  rw [stop_opened, Nat.add_assoc, ← Text.byteLength_append, List.cons_append,
    List.takeWhile_append_dropWhile]

end Token

/-! ### The lexer scans -/

namespace Lexer

theorem next_of_cons {lexer : Lexer} {first : Char} {rest : List Char}
    (unread : lexer.rest = first :: rest) :
    lexer.next = (Token.opened lexer.position first rest,
      { lexer with
        rest := rest.dropWhile (Token.Kind.ofChar first).continues
        position := (Token.opened lexer.position first rest).span.stop
        faults := noting lexer.faults (Token.opened lexer.position first rest) }) := by
  unfold next
  rw [unread, Token.stop_opened]
  rfl

theorem noting_eq (faults : Array (Located LexFault)) (token : Token) :
    noting faults token = faults ++ (Token.faults [token]).toArray := by
  unfold noting Token.faults
  cases equal : token.fault? <;> simp [equal]

theorem drawAll_of_finished {lexer : Lexer} (finished : lexer.finished = true)
    (drawn : Array Token) : drawAll drawn lexer = (drawn, lexer) := by
  rw [drawAll]
  split
  · rename_i after none
    rw [next?_of_finished finished] at none
    rw [(Prod.mk.inj none).2]
  · rename_i token after some
    rw [next?_of_finished finished] at some
    cases (Prod.mk.inj some).1

theorem drawAll_of_unfinished {lexer : Lexer} (unfinished : lexer.finished = false)
    (drawn : Array Token) :
    drawAll drawn lexer = drawAll (drawn.push lexer.next.1)
      { lexer.next.2 with finished := lexer.next.1.kind = .endOfFile } := by
  rw [drawAll]
  split
  · rename_i after none
    rw [next?_of_unfinished unfinished] at none
    cases (Prod.mk.inj none).1
  · rename_i token after some
    rw [next?_of_unfinished unfinished] at some
    obtain ⟨first, second⟩ := Prod.mk.inj some
    rw [← Option.some.inj first, ← second]

/-- **Drawing all tokens is scanning**, up to the token for the end. -/
theorem drawAll_eq_scan (drawn : Array Token) (lexer : Lexer) (unfinished : lexer.finished = false) :
    drawAll drawn lexer =
      (drawn ++ (Token.scan lexer.position lexer.rest ++
          [Token.endOfFile (lexer.position + Text.byteLength lexer.rest)]).toArray,
        ⟨[], lexer.position + Text.byteLength lexer.rest,
          lexer.faults ++ (Token.faults (Token.scan lexer.position lexer.rest)).toArray, true⟩) := by
  obtain ⟨rest, position, faults, finished⟩ := lexer
  simp only at unfinished ⊢
  subst unfinished
  fun_induction Token.scan position rest generalizing drawn faults with
  | case1 position =>
    rw [drawAll_of_unfinished rfl, drawAll_of_finished rfl]
    simp [next, Token.endOfFile, Token.missing, Token.faults]
  | case2 position first rest ih =>
    rw [drawAll_of_unfinished rfl, next_of_cons rfl]
    have going : (Token.opened position first rest).kind ≠ .endOfFile :=
      Token.Kind.ofChar_ne_endOfFile first
    simp only [going, decide_false]
    rw [ih, noting_eq]
    rw [← Token.stop_opened_add, Token.faults_cons _ (Token.scan ..)]
    simp

end Lexer

/-- **Lexing a line is scanning it**, up to the token for its end. -/
theorem tokenize_eq_scan (text : String) :
    tokenize text = (Token.scan 0 text.toList ++ [Token.endOfFile text.utf8ByteSize],
      Token.faults (Token.scan 0 text.toList)) := by
  unfold tokenize Lexer.remaining
  rw [Lexer.drawAll_eq_scan _ _ rfl]
  simp [Lexer.ofString, Text.utf8ByteSize_eq_byteLength]

/-! ### Seams -/

namespace Text

/-- No run of digits or blanks goes on from one text into the next. -/
def Apart (front back : List Char) : Prop :=
  ∀ last ∈ front.getLast?, ∀ first ∈ back.head?,
    ¬ (last.isDigit = true ∧ first.isDigit = true) ∧
      ¬ (isBlank last = true ∧ isBlank first = true)

-- given by hand, since an instance for all characters may be found instead
instance (front back : List Char) : Decidable (Apart front back) :=
  @Option.decidableForallMem _ _ (fun _ => Option.decidableForallMem _) _

def isSymbol (char : Char) : Bool := !char.isDigit && !isBlank char

/-- What holds of a character holds of the first one of every text that it opens. -/
theorem forall_head_cons {holds : Char → Prop} {char : Char} {rest : List Char}
    (here : holds char) : ∀ first ∈ (char :: rest).head?, holds first := by
  intro first member
  rwa [← Option.some.inj (Option.mem_def.mp member)]

theorem Apart.of_left {front back : List Char}
    (symbol : ∀ last ∈ front.getLast?, isSymbol last = true) : Apart front back := by
  intro last member first _
  have fits := symbol last member
  simp only [isSymbol, Bool.and_eq_true, Bool.not_eq_true'] at fits
  simp [fits]

theorem Apart.of_right {front back : List Char}
    (symbol : ∀ first ∈ back.head?, isSymbol first = true) : Apart front back := by
  intro last _ first member
  have fits := symbol first member
  simp only [isSymbol, Bool.and_eq_true, Bool.not_eq_true'] at fits
  simp [fits]

/-- A blank next to a character that is none ends every run. -/
theorem Apart.of_ne {front back : List Char}
    (differ : ∀ last ∈ front.getLast?, ∀ first ∈ back.head?, isBlank last ≠ isBlank first) :
    Apart front back := by
  intro last member first member'
  have different := differ last member first member'
  refine ⟨fun ⟨digit, digit'⟩ => ?_, fun ⟨blank, blank'⟩ => ?_⟩
  · rw [isBlank_eq_false_of_isDigit digit, isBlank_eq_false_of_isDigit digit'] at different
    exact different rfl
  · rw [blank, blank'] at different
    exact different rfl

/-- A digit next to a character that is none ends every run. -/
theorem Apart.of_digits {front back : List Char}
    (digits : ∀ last ∈ front.getLast?, last.isDigit = true)
    (other : ∀ first ∈ back.head?, first.isDigit = false) : Apart front back := by
  intro last member first member'
  refine ⟨fun ⟨_, digit⟩ => ?_, fun ⟨blank, _⟩ => ?_⟩
  · rw [other first member'] at digit
    cases digit
  · rw [isBlank_eq_false_of_isDigit (digits last member)] at blank
    cases blank

/-- What is left of a text after its first run meets the next text as the whole text does. -/
theorem Apart.dropWhile {first : Char} {rest back : List Char} (apart : Apart (first :: rest) back)
    (test : Char → Bool) : Apart (rest.dropWhile test) back := by
  intro last member
  refine apart last ?_
  obtain ⟨run, whole⟩ := List.dropWhile_suffix (l := rest) test
  rw [← whole, List.getLast?_cons, List.getLast?_append, Option.mem_def.mp member]
  rfl

/-- A run that ends with a text or before it ends there too if another text follows. -/
theorem takeWhile_append_of_ends {test : Char → Bool} {front back : List Char}
    (ends : (∀ char ∈ front, test char = true) → ∀ char ∈ back.head?, test char = false) :
    (front ++ back).takeWhile test = front.takeWhile test ∧
      (front ++ back).dropWhile test = front.dropWhile test ++ back := by
  induction front with
  | nil =>
    cases back with
    | nil => exact ⟨rfl, rfl⟩
    | cons first back =>
      have outside := ends (fun _ member => by cases member) first rfl
      simp [outside]
  | cons char front ih =>
    by_cases inside : test char = true
    · obtain ⟨taken, left⟩ := ih fun all => ends (List.forall_mem_cons.mpr ⟨inside, all⟩)
      simp [inside, taken, left]
    · simp [inside]

/-- Characters that continue the same token are both digits or both blanks. -/
theorem both_of_continues {kind : Token.Kind} {char char' : Char}
    (first : kind.continues char = true) (second : kind.continues char' = true) :
    (char.isDigit = true ∧ char'.isDigit = true) ∨
      (isBlank char = true ∧ isBlank char' = true) := by
  cases kind with
  | number => exact .inl ⟨first, second⟩
  | whitespace => exact .inr ⟨first, second⟩
  | plus | minus | star | slash | openParen | closeParen | invalid | endOfFile => cases first

/-- A token that anything continues is continued by the character that opens it. -/
theorem continues_of_continues {first char : Char}
    (goesOn : (Token.Kind.ofChar first).continues char = true) :
    (Token.Kind.ofChar first).continues first = true := by
  unfold Token.Kind.ofChar at goesOn ⊢
  by_cases digit : first.isDigit = true
  · rw [if_pos digit]
    exact digit
  · by_cases blank : isBlank first = true
    · rw [if_neg digit, if_pos blank]
      exact blank
    · rw [if_neg digit, if_neg blank] at goesOn
      split at goesOn <;> cases goesOn

/-- The run at the end of a text ends at the seam. -/
theorem Apart.ends {first : Char} {rest back : List Char} (apart : Apart (first :: rest) back)
    (all : ∀ char ∈ rest, (Token.Kind.ofChar first).continues char = true) :
    ∀ char ∈ back.head?, (Token.Kind.ofChar first).continues char = false := by
  intro char member
  obtain ⟨last, isLast⟩ : ∃ last, last ∈ (first :: rest).getLast? :=
    ⟨_, List.getLast?_eq_some_getLast (List.cons_ne_nil _ _)⟩
  obtain ⟨notDigits, notBlanks⟩ := apart last isLast char member
  rw [Bool.eq_false_iff]
  intro goesOn
  have lastGoesOn : (Token.Kind.ofChar first).continues last = true := by
    rcases List.mem_cons.mp (List.mem_of_getLast? isLast) with rfl | inside
    · exact continues_of_continues goesOn
    · exact all last inside
  rcases both_of_continues lastGoesOn goesOn with digits | blanks
  · exact notDigits digits
  · exact notBlanks blanks

end Text

namespace Token

/-- **A text is scanned in two parts** if no run goes on across the seam. -/
theorem scan_append {front back : List Char} (position : Nat) (apart : Text.Apart front back) :
    scan position (front ++ back) =
      scan position front ++ scan (position + Text.byteLength front) back := by
  fun_induction scan position front with
  | case1 position => simp
  | case2 position first rest ih =>
    obtain ⟨taken, left⟩ := Text.takeWhile_append_of_ends apart.ends
    have same : opened position first (rest ++ back) = opened position first rest := by
      simp only [opened, taken]
    rw [List.cons_append, scan, same, left, ih (apart.dropWhile _), stop_opened_add,
      List.cons_append]

/-- A single run is a single token. -/
theorem scan_run (position : Nat) (first : Char) (rest : List Char)
    (run : ∀ char ∈ rest, (Kind.ofChar first).continues char = true) :
    scan position (first :: rest) =
      [⟨Kind.ofChar first, position, String.ofList (first :: rest),
        (Kind.ofChar first).value? (first :: rest)⟩] := by
  rw [scan, List.dropWhile_eq_nil_iff.mpr run, scan]
  simp only [opened, List.takeWhile_eq_self_iff.mpr run]

end Token

namespace Token

theorem text_ne_of_mem_scan {position : Nat} {text : List Char} {token : Token}
    (member : token ∈ scan position text) : token.text ≠ "" := by
  fun_induction scan position text with
  | case1 position => cases member
  | case2 position first rest ih =>
    rcases List.mem_cons.mp member with rfl | later
    · intro empty
      have lexeme := congrArg String.toList empty
      simp [opened] at lexeme
    · exact ih later

/-- A token with some text takes at least one byte. -/
theorem position_lt_stop {token : Token} (written : token.text ≠ "") :
    token.position < token.span.stop := by
  have size : token.text.utf8ByteSize ≠ 0 := by
    simpa using written
  exact Nat.lt_add_of_pos_right (Nat.pos_of_ne_zero size)

theorem le_position_of_mem_scan {position : Nat} {text : List Char} {token : Token}
    (member : token ∈ scan position text) : position ≤ token.position := by
  fun_induction scan position text with
  | case1 position => cases member
  | case2 position first rest ih =>
    rcases List.mem_cons.mp member with rfl | later
    · exact Nat.le_refl _
    · exact Nat.le_trans (opened position first rest).span.start_le_stop (ih later)

/-- No token that is scanned goes on behind the end of the text. -/
theorem stop_le_of_mem_scan {position : Nat} {text : List Char} {token : Token}
    (member : token ∈ scan position text) :
    token.span.stop ≤ position + Text.byteLength text := by
  fun_induction scan position text with
  | case1 position => cases member
  | case2 position first rest ih =>
    have whole := stop_opened_add position first rest
    rcases List.mem_cons.mp member with rfl | later
    · omega
    · have inside := ih later
      omega

/-- **The tokens that are scanned stand one behind the other.** -/
theorem pairwise_scan (position : Nat) (text : List Char) :
    (scan position text).Pairwise fun first second => first.span.stop ≤ second.position := by
  fun_induction scan position text with
  | case1 position => exact .nil
  | case2 position first rest ih => exact .cons (fun _ later => le_position_of_mem_scan later) ih

end Token

/-- The tokens of a line that have a part in an expression. -/
def significant (text : String) : List Token := (tokenize text).1.filter (·.isSignificant)

theorem significant_eq_scan (text : String) :
    significant text = (Token.scan 0 text.toList).filter (·.isSignificant) := by
  rw [significant, tokenize_eq_scan, List.filter_append]
  simp [Token.endOfFile, Token.missing, Token.isSignificant, Token.Kind.isSignificant]

/-! ### Pieces -/

/-- A text without faults, and its significant tokens. -/
structure Lexes (position : Nat) (text : List Char) (tokens : List Token) : Prop where
  significant : (Token.scan position text).filter (·.isSignificant) = tokens
  faultless : ∀ token ∈ Token.scan position text, token.fault? = none

namespace Lexes

theorem append {position : Nat} {front back : List Char} {tokens tokens' : List Token}
    (first : Lexes position front tokens)
    (second : Lexes (position + Text.byteLength front) back tokens')
    (apart : Text.Apart front back) : Lexes position (front ++ back) (tokens ++ tokens') := by
  have parts := Token.scan_append position apart
  refine ⟨?_, fun token member => ?_⟩
  · rw [parts, List.filter_append, first.significant, second.significant]
  · rw [parts] at member
    rcases List.mem_append.mp member with member | member
    · exact first.faultless token member
    · exact second.faultless token member

theorem nil (position : Nat) : Lexes position [] [] := by
  constructor <;> simp [Token.scan]

/-- Blanks have no part in an expression. -/
theorem blanks {text : List Char} (position : Nat)
    (blank : ∀ char ∈ text, Text.isBlank char = true) : Lexes position text [] := by
  cases text with
  | nil => exact nil position
  | cons first rest =>
    have kind := Token.Kind.ofChar_eq_whitespace_iff.mpr (blank first List.mem_cons_self)
    have run := Token.scan_run position first rest (by
      rw [kind]
      exact fun char member => blank char (List.mem_cons_of_mem _ member))
    rw [kind] at run
    constructor
    · rw [run]
      rfl
    · rw [run]
      exact fun token member => by rw [List.mem_singleton.mp member]; rfl

/-- A numeral in range is one token, with its value. -/
theorem numeral {digits : List Char} {value : Value} (position : Nat) (nonempty : digits ≠ [])
    (isDigit : ∀ char ∈ digits, char.isDigit = true)
    (inRange : Value.ofDigits? digits = some value) :
    Lexes position digits [⟨.number, position, String.ofList digits, some value⟩] := by
  obtain ⟨first, rest, rfl⟩ := List.exists_cons_of_ne_nil nonempty
  have kind := Token.Kind.ofChar_eq_number_iff.mpr (isDigit first List.mem_cons_self)
  have run := Token.scan_run position first rest (by
    rw [kind]
    exact fun char member => isDigit char (List.mem_cons_of_mem _ member))
  rw [kind, Token.Kind.value?, inRange] at run
  constructor
  · rw [run]
    rfl
  · rw [run]
    exact fun token member => by rw [List.mem_singleton.mp member]; rfl

/-- An operator or a parenthesis is one token, and nothing goes on with it. -/
theorem symbol {position : Nat} {char : Char} {rest : List Char} {tokens : List Token}
    (known : char ∈ ['+', '-', '*', '/', '(', ')']) (lexes : Lexes (position + 1) rest tokens) :
    Lexes position (char :: rest) (.ofSymbol char position :: tokens) := by
  have run := Token.scan_run position char [] (fun _ member => by cases member)
  simp only [List.mem_cons, List.not_mem_nil, or_false] at known
  have single : Lexes position [char] [.ofSymbol char position] := by
    constructor
    · rw [run]
      rcases known with rfl | rfl | rfl | rfl | rfl | rfl <;> rfl
    · rw [run]
      intro token member
      rw [List.mem_singleton.mp member]
      rcases known with rfl | rfl | rfl | rfl | rfl | rfl <;> rfl
  have size : Text.byteLength [char] = 1 := by
    rcases known with rfl | rfl | rfl | rfl | rfl | rfl <;> rfl
  rw [← size] at lexes
  refine single.append lexes (.of_left fun last member => ?_)
  obtain rfl := Option.some.inj (Option.mem_def.mp member)
  rcases known with rfl | rfl | rfl | rfl | rfl | rfl <;> decide

/-- Blanks before something else have no part in an expression. -/
theorem spaced {gap rest : List Char} {tokens : List Token} (position : Nat)
    (blank : ∀ char ∈ gap, Text.isBlank char = true)
    (lexes : Lexes (position + Text.byteLength gap) rest tokens)
    (next : ∀ first ∈ rest.head?, Text.isBlank first = false) :
    Lexes position (gap ++ rest) tokens := by
  refine (blanks position blank).append lexes (.of_ne fun last member first member' => ?_)
  rw [blank last (List.mem_of_getLast? member), next first member']
  decide

theorem space {position : Nat} {rest : List Char} {tokens : List Token}
    (lexes : Lexes (position + 1) rest tokens)
    (next : ∀ first ∈ rest.head?, Text.isBlank first = false) :
    Lexes position (' ' :: rest) tokens := by
  have blank : ∀ char ∈ [' '], Text.isBlank char = true :=
    List.forall_mem_singleton.mpr (by decide)
  exact spaced position blank lexes next

end Lexes

/-- A line without faults, and its significant tokens. -/
theorem Lexes.line {text : List Char} {tokens : List Token} (lexes : Lexes 0 text tokens) :
    (tokenize (String.ofList text)).2 = [] ∧ IntCalc.significant (String.ofList text) = tokens := by
  rw [significant_eq_scan, tokenize_eq_scan, String.toList_ofList]
  refine ⟨?_, lexes.significant⟩
  refine List.filterMap_eq_nil_iff.mpr fun token member => ?_
  rw [lexes.faultless token member]
  rfl

end IntCalc
