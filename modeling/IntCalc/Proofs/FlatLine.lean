/-
**Lines without parentheses.**

A flat line is a row of signed numerals with operators between them and blanks anywhere between the
tokens. It is answered with what the tally of its operands comes to, and if that is a fault, with
the same fault at the same operator (`answer_text_eq_tally`).

The tokens of the line are the leaves of the tree that the row builds (`lexes_spell`), and this tree
is one of the grammar that nests three levels at most (`flat_tree`), so it is the tree that the line
is parsed as. The rest is a matter of the tree alone (`evaluate_tree`).
-/
import IntCalc.Answer
import IntCalc.Proofs.Recognition
import IntCalc.Proofs.Tally

namespace IntCalc

/-! ### What flat lines are -/

/-- Some blanks, or none. -/
structure Blanks where
  chars : List Char
  blank : chars.all Text.isBlank = true

/-- Decimal digits whose value is in range. Zeros may come first. -/
structure Numeral where
  digits : List Char
  nonempty : digits ≠ []
  decimal : digits.all Char.isDigit = true
  inRange : Nat.ofDigitChars 10 digits 0 ≤ 2147483647

/-- A numeral with at most one minus before it. -/
structure SignedNumeral where
  /-- The blanks behind the minus, if there is one. -/
  minus : Option Blanks
  numeral : Numeral

/-- An operator and its right operand. -/
structure FlatLink where
  before : Blanks
  operator : Operator
  after : Blanks
  operand : SignedNumeral

/-- A row of signed numerals with operators between them. -/
structure FlatLine where
  leading : Blanks
  first : SignedNumeral
  links : List FlatLink
  trailing : Blanks

/-! ### Blanks -/

namespace Blanks

theorem isBlank_of_mem (gap : Blanks) : ∀ char ∈ gap.chars, Text.isBlank char = true :=
  List.all_eq_true.mp gap.blank

theorem isDigit_head {rest : List Char} (gap : Blanks)
    (other : ∀ first ∈ rest.head?, first.isDigit = false) :
    ∀ first ∈ (gap.chars ++ rest).head?, first.isDigit = false := by
  intro first member
  rw [List.head?_append] at member
  cases opens : gap.chars.head? with
  | none =>
    rw [opens] at member
    exact other first member
  | some blank =>
    rw [opens] at member
    obtain rfl := Option.some.inj (Option.mem_def.mp member)
    exact Text.isDigit_eq_false_of_isBlank (gap.isBlank_of_mem blank (List.mem_of_head? opens))

end Blanks

/-! ### Numerals with signs -/

namespace Numeral

def value (numeral : Numeral) : Value :=
  ⟨Nat.ofDigitChars 10 numeral.digits 0, by omega, Int.ofNat_le.mpr numeral.inRange⟩

theorem isDigit_of_mem (numeral : Numeral) :
    ∀ char ∈ numeral.digits, char.isDigit = true := List.all_eq_true.mp numeral.decimal

def token (numeral : Numeral) (position : Nat) : Token :=
  ⟨.number, position, String.ofList numeral.digits, some numeral.value⟩

theorem ofDigits?_digits (numeral : Numeral) :
    Value.ofDigits? numeral.digits = some numeral.value :=
  Value.ofInt?_eq_some_iff.mpr rfl

/-- A numeral is one token, if no digit follows. -/
theorem lexes (numeral : Numeral) (position : Nat) {rest : List Char} {tokens : List Token}
    (follows : Lexes (position + Text.byteLength numeral.digits) rest tokens)
    (ends : ∀ first ∈ rest.head?, first.isDigit = false) :
    Lexes position (numeral.digits ++ rest) (numeral.token position :: tokens) := by
  have single := Lexes.numeral position numeral.nonempty numeral.isDigit_of_mem
    numeral.ofDigits?_digits
  refine single.append follows (.of_digits (fun last member => ?_) ends)
  exact numeral.isDigit_of_mem last (List.mem_of_getLast? member)

end Numeral

namespace SignedNumeral

def spell : SignedNumeral → List Char
  | ⟨none, numeral⟩ => numeral.digits
  | ⟨some gap, numeral⟩ => '-' :: (gap.chars ++ numeral.digits)

def value : SignedNumeral → Value
  | ⟨none, numeral⟩ => numeral.value
  | ⟨some _, numeral⟩ =>
    ⟨-numeral.value.toInt, by have := numeral.value.le_greatest; omega,
      by have : 0 ≤ numeral.value.toInt := Int.natCast_nonneg _; omega⟩

def tree (position : Nat) : SignedNumeral → Expr
  | ⟨none, numeral⟩ => .number (numeral.token position)
  | ⟨some gap, numeral⟩ =>
    .unary (.ofSymbol '-' position)
      (.number (numeral.token (position + 1 + Text.byteLength gap.chars)))

/-- A signed numeral opens with a character that is no blank. -/
theorem isBlank_head_spell (operand : SignedNumeral) (rest : List Char) :
    ∀ first ∈ (operand.spell ++ rest).head?, Text.isBlank first = false := by
  obtain ⟨_ | gap, numeral⟩ := operand
  · obtain ⟨first, others, digits⟩ := List.exists_cons_of_ne_nil numeral.nonempty
    have inside : first ∈ numeral.digits := digits ▸ List.mem_cons_self
    rw [spell, digits]
    exact Text.forall_head_cons
      (Text.isBlank_eq_false_of_isDigit (numeral.isDigit_of_mem first inside))
  · exact Text.forall_head_cons (by decide)

/-- **A signed numeral lexes to the leaves of its tree**, if no digit follows. -/
theorem lexes (operand : SignedNumeral) (position : Nat) {rest : List Char} {tokens : List Token}
    (follows : Lexes (position + Text.byteLength operand.spell) rest tokens)
    (ends : ∀ first ∈ rest.head?, first.isDigit = false) :
    Lexes position (operand.spell ++ rest) ((operand.tree position).leaves ++ tokens) := by
  obtain ⟨_ | gap, numeral⟩ := operand
  · exact numeral.lexes position follows ends
  · have size : position + Text.byteLength ('-' :: (gap.chars ++ numeral.digits)) =
        position + 1 + Text.byteLength gap.chars + Text.byteLength numeral.digits := by
      have minus : '-'.utf8Size = 1 := rfl
      rw [Text.byteLength_cons, Text.byteLength_append, minus]
      omega
    rw [spell, size] at follows
    have digits := numeral.lexes _ follows ends
    have spaced := Lexes.spaced (position + 1) gap.isBlank_of_mem digits
      (isBlank_head_spell ⟨none, numeral⟩ rest)
    rw [spell, List.cons_append, List.append_assoc]
    exact .symbol (by decide) spaced

theorem evaluate_tree (operand : SignedNumeral) (position : Nat) :
    (operand.tree position).evaluate = .ok operand.value := by
  obtain ⟨_ | gap, numeral⟩ := operand
  · rfl
  · have negated : numeral.value.neg? = some (value ⟨some gap, numeral⟩) :=
      Value.ofInt?_eq_some_iff.mpr rfl
    rw [tree, Expr.evaluate_unary]
    show (Token.ofSymbol '-' position).checked numeral.value.neg? = _
    rw [negated]
    rfl

theorem operand_tree (operand : SignedNumeral) (position : Nat) :
    Draft.Operand (operand.tree position) := by
  obtain ⟨_ | gap, numeral⟩ := operand
  · exact ⟨.unaryOfPrimary (.number rfl), Nat.zero_le 1⟩
  · exact ⟨.signed (.inr rfl) (.unaryOfPrimary (.number rfl)), Nat.le_refl 1⟩

theorem operatorCount_tree (operand : SignedNumeral) (position : Nat) :
    (operand.tree position).operatorCount = 0 := by
  obtain ⟨_ | gap, numeral⟩ := operand <;> rfl

end SignedNumeral

/-! ### The row of a flat line -/

namespace FlatLink

def spell (link : FlatLink) : List Char :=
  link.before.chars ++ link.operator.symbol :: (link.after.chars ++ link.operand.spell)

/-- The links of a row that starts at a position. Every operand is given its own position. -/
def placed (position : Nat) : List FlatLink → List (Link (SignedNumeral × Nat))
  | [] => []
  | link :: links =>
    let operatorAt := position + Text.byteLength link.before.chars
    let operandAt := operatorAt + 1 + Text.byteLength link.after.chars
    ⟨link.operator, operatorAt, link.operand, operandAt⟩ ::
      placed (operandAt + Text.byteLength link.operand.spell) links

theorem length_placed (position : Nat) (links : List FlatLink) :
    (placed position links).length = links.length := by
  induction links generalizing position with
  | nil => rfl
  | cons link links ih => rw [placed, List.length_cons, ih, List.length_cons]

theorem isDigit_head_spell (links : List FlatLink) (trailing : Blanks) :
    ∀ first ∈ (links.flatMap spell ++ trailing.chars).head?, first.isDigit = false := by
  cases links with
  | nil =>
    intro first member
    exact Text.isDigit_eq_false_of_isBlank (trailing.isBlank_of_mem first (List.mem_of_head? member))
  | cons link links =>
    rw [List.flatMap_cons, spell, List.append_assoc, List.append_assoc]
    exact link.before.isDigit_head (Text.forall_head_cons link.operator.isDigit_symbol)

/-- **The links of a row lex to their operators, each with the leaves of its operand.** -/
theorem lexes (links : List FlatLink) (trailing : Blanks) (position : Nat) :
    Lexes position (links.flatMap spell ++ trailing.chars)
      ((placed position links).flatMap fun link =>
        link.operator.token link.position :: (link.operand.1.tree link.operand.2).leaves) := by
  induction links generalizing position with
  | nil => exact .blanks position trailing.isBlank_of_mem
  | cons link links ih =>
    let operatorAt := position + Text.byteLength link.before.chars
    let operandAt := operatorAt + 1 + Text.byteLength link.after.chars
    have operand := link.operand.lexes operandAt
      (ih (operandAt + Text.byteLength link.operand.spell)) (isDigit_head_spell links trailing)
    have gap := Lexes.spaced (operatorAt + 1) link.after.isBlank_of_mem
      operand (link.operand.isBlank_head_spell _)
    have operator := Lexes.symbol link.operator.symbol_mem gap
    have whole := Lexes.spaced position link.before.isBlank_of_mem operator
      (Text.forall_head_cons link.operator.isBlank_symbol)
    simpa [spell, placed, Operator.token] using whole

end FlatLink

namespace FlatLine

def spell (line : FlatLine) : List Char :=
  line.leading.chars ++ (line.first.spell ++
    (line.links.flatMap FlatLink.spell ++ line.trailing.chars))

/-- A flat line as it is written. -/
def text (line : FlatLine) : String := String.ofList line.spell

def firstAt (line : FlatLine) : Nat := Text.byteLength line.leading.chars

def placed (line : FlatLine) : List (Link (SignedNumeral × Nat)) :=
  FlatLink.placed (line.firstAt + Text.byteLength line.first.spell) line.links

/-- The operators of a line at their positions, each with the value of its right operand. -/
def row (line : FlatLine) : List (Link Value) := line.placed.map (·.map fun item => item.1.value)

/-- What the tally of a line comes to. -/
def tally (line : FlatLine) : Evaluation := (Tally.start line.first.value).run line.row

/-! ### The tree of a flat line -/

/-- The operators of a line at their positions, each with the tree of its right operand. -/
def branches (line : FlatLine) : List (Link Expr) :=
  line.placed.map (·.map fun item => item.1.tree item.2)

/-- The tree of a line, as its row builds it. -/
def tree (line : FlatLine) : Expr :=
  Draft.run ⟨none, line.first.tree line.firstAt⟩ line.branches

theorem leaves_tree (line : FlatLine) :
    line.tree.leaves = (line.first.tree line.firstAt).leaves ++
      line.placed.flatMap fun link =>
        link.operator.token link.position :: (link.operand.1.tree link.operand.2).leaves := by
  rw [tree, Draft.leaves_run, branches, List.flatMap_map]
  rfl

/-- **A flat line lexes to the leaves of its tree.** -/
theorem lexes_spell (line : FlatLine) : Lexes 0 line.spell line.tree.leaves := by
  have links := FlatLink.lexes line.links line.trailing
    (line.firstAt + Text.byteLength line.first.spell)
  have row := line.first.lexes line.firstAt links
    (FlatLink.isDigit_head_spell line.links line.trailing)
  rw [leaves_tree]
  refine .spaced 0 line.leading.isBlank_of_mem ?_ (line.first.isBlank_head_spell _)
  rw [Nat.zero_add]
  exact row

theorem operatorCount_tree (line : FlatLine) : line.tree.operatorCount = line.links.length := by
  have single : ∀ branch ∈ line.branches, branch.operand.operatorCount = 0 := by
    intro branch member
    obtain ⟨link, -, rfl⟩ := List.mem_map.mp member
    exact link.operand.1.operatorCount_tree link.operand.2
  rw [tree, Draft.operatorCount_run _ _ single, Draft.settle, line.first.operatorCount_tree,
    branches, List.length_map, placed, FlatLink.length_placed, Nat.zero_add]

/-- The tree of a line is an expression of the grammar, and nests three levels at most. -/
theorem flat_tree (line : FlatLine) : line.tree.Derives .expr ∧ line.tree.nesting ≤ 3 := by
  refine (Draft.Flat.of_operand (line.first.operand_tree line.firstAt)).run line.branches ?_
  intro branch member
  obtain ⟨link, -, rfl⟩ := List.mem_map.mp member
  exact link.operand.1.operand_tree link.operand.2

theorem evaluate_tree (line : FlatLine) : line.tree.evaluate = line.tally := by
  have run := Draft.evaluate_run (fun item : SignedNumeral × Nat => item.1.tree item.2)
    (fun item => item.1.value) (fun item => item.1.evaluate_tree item.2)
    ⟨none, line.first.tree line.firstAt⟩ line.placed
  rw [Draft.outcome, line.first.evaluate_tree] at run
  exact run

/-! ### The answer to a flat line -/

/-- A flat line with no more operators than are allowed is parsed as its tree. -/
theorem parse_text (line : FlatLine) (few : line.links.length ≤ 1024) :
    (parse line.text).diagnostics = [] ∧ (parse line.text).root = line.tree := by
  obtain ⟨clean, leaves⟩ := line.lexes_spell.line
  obtain ⟨derived, shallow⟩ := line.flat_tree
  refine parse_of_spells clean ⟨derived, leaves.symm, ?_, by omega⟩
  rw [operatorCount_tree]
  exact few

/-- **A flat line is answered with what its tally comes to**, or with the same fault at the same
operator. -/
theorem answer_text_eq_tally (line : FlatLine) (few : line.links.length ≤ 1024) :
    answer line.text = line.tally.mapError .runtime := by
  obtain ⟨accepted, root⟩ := line.parse_text few
  rw [answer, ParsedLine.answer, accepted, root, ← line.evaluate_tree]

/-- A sum that overflows before a later term divides by zero. -/
def earlyOverflow : FlatLine where
  leading := ⟨[' '], by decide⟩
  first := ⟨none, ⟨['2', '1', '4', '7', '4', '8', '3', '6', '4', '7'], by decide, by decide,
    by decide⟩⟩
  links := [
    ⟨⟨[], by decide⟩, .sub, ⟨[' '], by decide⟩,
      ⟨some ⟨[], by decide⟩, ⟨['0', '1'], by decide, by decide, by decide⟩⟩⟩,
    ⟨⟨[' '], by decide⟩, .add, ⟨['\t'], by decide⟩,
      ⟨none, ⟨['6'], by decide, by decide, by decide⟩⟩⟩,
    ⟨⟨[], by decide⟩, .div, ⟨[], by decide⟩,
      ⟨none, ⟨['0'], by decide, by decide, by decide⟩⟩⟩]
  trailing := ⟨[], by decide⟩

theorem answer_text_earlyOverflow :
    earlyOverflow.links.length ≤ 1024 ∧ earlyOverflow.text = " 2147483647- -01 +\t6/0" ∧
      answer earlyOverflow.text = .error (.runtime ⟨.overflow, ⟨11, 1⟩⟩) :=
  ⟨by decide, by decide, (answer_text_eq_tally earlyOverflow (by decide)).trans (by rfl)⟩

end FlatLine

end IntCalc
