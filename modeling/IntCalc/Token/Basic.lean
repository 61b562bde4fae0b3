/-
**Tokens: the lexemes of a line.**

A token keeps its exact text and its position, so the tokens of a line say where everything stood.
`Token.Kind.ofChar` gives the kind of the token that a character opens, and `Token.Kind.continues`
the characters that go on with it: digits continue a number, blanks a stretch of blanks, and
nothing continues any other token.
-/
import IntCalc.Span
import IntCalc.Text.Blank
import IntCalc.Value

namespace IntCalc

/-! ### Kinds -/

/-- What a token is. -/
inductive Token.Kind where
  | number
  | plus
  | minus
  | star
  | slash
  | openParen
  | closeParen
  | whitespace
  /-- A character with no place in an expression. -/
  | invalid
  | endOfFile
  deriving DecidableEq, Repr

namespace Token.Kind

def name : Kind → String
  | number => "Number"
  | plus => "Plus"
  | minus => "Minus"
  | star => "Star"
  | slash => "Slash"
  | openParen => "OpenParen"
  | closeParen => "CloseParen"
  | whitespace => "Whitespace"
  | invalid => "Invalid"
  | endOfFile => "EndOfFile"

def all : List Kind :=
  [number, plus, minus, star, slash, openParen, closeParen, whitespace, invalid, endOfFile]

theorem mem_all (kind : Kind) : kind ∈ all := by cases kind <;> decide

/-- The kind of the token that a character opens. -/
def ofChar (char : Char) : Kind :=
  if char.isDigit then number
  else if Text.isBlank char then whitespace
  else
    match char with
    | '+' => plus
    | '-' => minus
    | '*' => star
    | '/' => slash
    | '(' => openParen
    | ')' => closeParen
    | _ => invalid

/-- Whether a character goes on with a token of this kind. -/
def continues : Kind → Char → Bool
  | number, char => char.isDigit
  | whitespace, char => Text.isBlank char
  | _, _ => false

/-- Whether a token of this kind has a part in an expression. -/
def isSignificant : Kind → Bool
  | whitespace | invalid | endOfFile => false
  | _ => true

/-- Digits open numbers, and nothing else does. -/
theorem ofChar_eq_number_iff {char : Char} : ofChar char = number ↔ char.isDigit = true := by
  unfold ofChar
  split
  · simp_all
  · split
    · simp_all
    · split <;> simp_all

/-- Blanks open stretches of blanks, and nothing else does. -/
theorem ofChar_eq_whitespace_iff {char : Char} :
    ofChar char = whitespace ↔ Text.isBlank char = true := by
  unfold ofChar
  split
  · rename_i digit
    simp [Text.isBlank_eq_false_of_isDigit digit]
  · split
    · simp_all
    · split <;> simp_all

theorem ofChar_ne_endOfFile (char : Char) : ofChar char ≠ endOfFile := by
  unfold ofChar
  split <;> try split
  all_goals try split
  all_goals decide

end Token.Kind

/-! ### Tokens -/

/-- A lexeme of a line. -/
structure Token where
  kind : Token.Kind
  position : Nat
  text : String
  /-- The value of a number that is in range. -/
  value : Option Value
  deriving DecidableEq

namespace Token

/-- A token that the line does not have, put in for one that it lacks. -/
def missing (kind : Kind) (position : Nat) : Token := ⟨kind, position, "", none⟩

/-- The token that stands for the end of a line. -/
def endOfFile (position : Nat) : Token := missing .endOfFile position

/-- A zero without text, put in for an operand that the line lacks. -/
def absentNumber (position : Nat) : Token := ⟨.number, position, "", some .zero⟩

/-- The stretch of the line that a token takes. -/
def span (token : Token) : Span := ⟨token.position, token.text.utf8ByteSize⟩

def isSignificant (token : Token) : Bool := token.kind.isSignificant

@[simp]
theorem start_span (token : Token) : token.span.start = token.position := rfl

end Token

end IntCalc
