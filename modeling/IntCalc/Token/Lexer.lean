/-
**The lexer.**

A lexer holds what is left of a line. The next token is opened by the first character left
(`Token.Kind.ofChar`) and takes every character that continues it, so no token could be longer.
There are two ways to draw tokens, and they may be mixed: `Lexer.next` always answers, at the end
with the token for the end of the line, and `Lexer.next?` answers with that token once and then no
more.

* `Lexer.kind_next_eq_endOfFile_iff`: the token for the end of the line is given at the end only;
* `Lexer.length_rest_next_lt`: short of the end, a token takes at least one character.
-/
import IntCalc.Fault
import IntCalc.Text.Slice

namespace IntCalc

/-! ### Numerals -/

/-- The value of a run of decimal digits, if it is in range. -/
def Value.ofDigits? (digits : List Char) : Option Value :=
  Value.ofInt? (Nat.ofDigitChars 10 digits 0)

/-- The value of a lexeme: only numbers have one. -/
def Token.Kind.value? : Token.Kind → List Char → Option Value
  | .number, lexeme => Value.ofDigits? lexeme
  | _, _ => none

/-- What is wrong with a token by itself. -/
def Token.fault? (token : Token) : Option LexFault :=
  match token.kind, token.value, token.text.toList with
  | .invalid, _, char :: _ => some (.unexpectedCharacter char token.position)
  | .number, none, _ => some (.numberOutOfRange token.text)
  | _, _, _ => none

/-! ### Drawing tokens -/

/-- A lexer part of the way through a line. -/
structure Lexer where
  rest : List Char
  /-- The byte position of the first of them. -/
  position : Nat
  faults : Array (Located LexFault)
  /-- Whether `next?` has given the token for the end of the line. -/
  finished : Bool

namespace Lexer

def ofString (text : String) : Lexer := ⟨text.toList, 0, #[], false⟩

/-- The faults, with that of one more token. -/
def noting (faults : Array (Located LexFault)) (token : Token) : Array (Located LexFault) :=
  match token.fault? with
  | some fault => faults.push ⟨fault, token.span⟩
  | none => faults

/-- The next token, which at the end of the line is that for the end of the line. -/
def next (lexer : Lexer) : Token × Lexer :=
  match lexer.rest with
  | [] => (.endOfFile lexer.position, lexer)
  | first :: rest =>
    let kind := Token.Kind.ofChar first
    let lexeme := first :: rest.takeWhile kind.continues
    let token := ⟨kind, lexer.position, String.ofList lexeme, kind.value? lexeme⟩
    (token,
      { lexer with
        rest := rest.dropWhile kind.continues
        position := lexer.position + Text.byteLength lexeme
        faults := noting lexer.faults token })

/-- The next token, until the one for the end of the line has been given. -/
def next? (lexer : Lexer) : Option Token × Lexer :=
  if lexer.finished then
    (none, lexer)
  else
    let drawn := lexer.next
    (some drawn.1, { drawn.2 with finished := drawn.1.kind = .endOfFile })

theorem length_rest_next_lt {lexer : Lexer} (unread : lexer.rest ≠ []) :
    lexer.next.2.rest.length < lexer.rest.length := by
  unfold next
  split
  · contradiction
  · rename_i first rest equal
    have shorter :=
      (List.dropWhile_suffix (l := rest) (Token.Kind.ofChar first).continues).length_le
    simp only [equal, List.length_cons]
    omega

theorem kind_next_eq_endOfFile_iff {lexer : Lexer} :
    lexer.next.1.kind = .endOfFile ↔ lexer.rest = [] := by
  unfold next
  split
  · rename_i equal
    simp [equal, Token.endOfFile, Token.missing]
  · rename_i first rest equal
    simp [equal, Token.Kind.ofChar_ne_endOfFile]

theorem finished_next (lexer : Lexer) : lexer.next.2.finished = lexer.finished := by
  unfold next
  split <;> rfl

/-- How many more tokens `next?` can give: at most one for each character and one for the end. -/
def budget (lexer : Lexer) : Nat :=
  lexer.rest.length + if lexer.finished then 0 else 1

theorem next?_of_unfinished {lexer : Lexer} (unfinished : lexer.finished = false) :
    lexer.next? =
      (some lexer.next.1, { lexer.next.2 with finished := lexer.next.1.kind = .endOfFile }) := by
  simp [next?, unfinished]

theorem next?_of_finished {lexer : Lexer} (finished : lexer.finished = true) :
    lexer.next? = (none, lexer) := by
  simp [next?, finished]

theorem budget_next?_lt {lexer after : Lexer} {token : Token}
    (drawn : lexer.next? = (some token, after)) : after.budget < lexer.budget := by
  cases finished : lexer.finished with
  | true => simp [next?_of_finished finished] at drawn
  | false =>
    rw [next?_of_unfinished finished, Prod.mk.injEq] at drawn
    obtain ⟨-, rfl⟩ := drawn
    by_cases unread : lexer.rest = []
    · have ended := kind_next_eq_endOfFile_iff.mpr unread
      have still : lexer.next.2.rest = [] := by simp [next, unread]
      simp [budget, unread, ended, still, finished]
    · have shorter := length_rest_next_lt unread
      have going : lexer.next.1.kind ≠ .endOfFile := mt kind_next_eq_endOfFile_iff.mp unread
      simp only [budget, going, finished, decide_false, Bool.false_eq_true, if_false]
      omega

/-- Draws tokens by `next?` until there are no more, after those drawn already. -/
def drawAll (drawn : Array Token) (lexer : Lexer) : Array Token × Lexer :=
  match _ : lexer.next? with
  | (none, after) => (drawn, after)
  | (some token, after) => drawAll (drawn.push token) after
termination_by lexer.budget
decreasing_by exact budget_next?_lt ‹_›

/-- The tokens that `next?` still gives, in order, and the lexer after them. -/
def remaining (lexer : Lexer) : List Token × Lexer :=
  let (tokens, after) := drawAll #[] lexer
  (tokens.toList, after)

end Lexer

/-- The tokens of a line, the one for its end included, and what is wrong with them. -/
def tokenize (text : String) : List Token × List (Located LexFault) :=
  let (tokens, after) := (Lexer.ofString text).remaining
  (tokens, after.faults.toList)

end IntCalc
