/-
**Lines that stand further on.**

If a text does not start a line but stands at some distance from its start, the same tokens are
found in it, shifted by the distance (`Token.scan_shift`), and the same faults of tokens
(`Token.faults_shift`). A tree with shifted tokens is one of the same category of the grammar, nests
and counts as before (`Derives.map`, `nesting_map`, `operatorCount_map`), and evaluates as before,
with the place of a fault shifted (`Expr.evaluate_shift`).
-/
import IntCalc.Proofs.Correspondence
import IntCalc.Proofs.Grammar
import IntCalc.Proofs.Scan

namespace IntCalc

/-! ### Shifted places -/

def Span.shift (distance : Nat) (span : Span) : Span := ⟨span.start + distance, span.length⟩

def Located.shift {α : Type} (distance : Nat) (fault : Located α) : Located α :=
  ⟨fault.value, fault.span.shift distance⟩

/-- What is wrong with a token that stands further on; a place that is named is further on too. -/
def LexFault.shift (distance : Nat) : LexFault → LexFault
  | unexpectedCharacter char position => unexpectedCharacter char (position + distance)
  | numberOutOfRange digits => numberOutOfRange digits

/-- The fault of a token that stands further on. -/
def Located.moved (distance : Nat) (fault : Located LexFault) : Located LexFault :=
  ⟨fault.value.shift distance, fault.span.shift distance⟩

namespace Token

/-- A token that stands further on. -/
def shift (distance : Nat) (token : Token) : Token :=
  { token with position := token.position + distance }

@[simp]
theorem kind_shift (distance : Nat) (token : Token) : (token.shift distance).kind = token.kind :=
  rfl

@[simp]
theorem bare_shift (distance : Nat) (token : Token) : (token.shift distance).bare = token.bare :=
  rfl

@[simp]
theorem span_shift (distance : Nat) (token : Token) :
    (token.shift distance).span = token.span.shift distance :=
  rfl

/-- **The same is wrong with a token further on**, and nothing else. -/
theorem fault?_shift (distance : Nat) (token : Token) :
    (token.shift distance).fault? = token.fault?.map (LexFault.shift distance) := by
  obtain ⟨kind, position, text, value⟩ := token
  simp only [fault?, shift]
  split <;> simp_all [LexFault.shift]

/-- **Tokens further on have the same faults**, moved. -/
theorem faults_shift (distance : Nat) (tokens : List Token) :
    faults (tokens.map (shift distance)) = (faults tokens).map (Located.moved distance) := by
  unfold faults
  rw [List.filterMap_map, List.map_filterMap]
  congr 1
  funext token
  simp only [Function.comp_apply, fault?_shift, span_shift, Option.map_map]
  rfl

/-- **A text further on is scanned into the same tokens**, shifted. -/
theorem scan_shift (distance position : Nat) (text : List Char) :
    scan (position + distance) text = (scan position text).map (shift distance) := by
  fun_induction scan position text with
  | case1 position => rw [scan, List.map_nil]
  | case2 position first rest ih =>
    have stop : (opened (position + distance) first rest).span.stop =
        (opened position first rest).span.stop + distance := by
      rw [stop_opened, stop_opened, Nat.add_right_comm]
    rw [scan, stop, ih, List.map_cons]
    rfl

end Token

/-- **A faultless line lexes to its significant tokens** wherever it stands, shifted to there. -/
theorem Lexes.shifted {text : String} (clean : (tokenize text).2 = []) (position : Nat) :
    Lexes position text.toList ((IntCalc.significant text).map (Token.shift position)) := by
  have scanned : Token.scan position text.toList =
      (Token.scan 0 text.toList).map (Token.shift position) := by
    rw [← Token.scan_shift, Nat.zero_add]
  rw [tokenize_eq_scan] at clean
  constructor
  · rw [scanned, significant_eq_scan, List.filter_map]
    rfl
  · intro token member
    rw [scanned] at member
    obtain ⟨original, given, rfl⟩ := List.mem_map.mp member
    have faultless := List.filterMap_eq_nil_iff.mp clean original given
    rw [Token.fault?_shift, Option.map_eq_none_iff.mp faultless, Option.map_none]

/-! ### Shifted trees -/

namespace Expr

theorem leaves_map (change : Token → Token) (expr : Expr) :
    (expr.map change).leaves = expr.leaves.map change := by
  induction expr with
  | number literal => rfl
  | unary operator operand ih => rw [map, leaves, ih, leaves, List.map_cons]
  | binary left operator right ihLeft ihRight =>
    rw [map, leaves, ihLeft, ihRight, leaves, List.map_append, List.map_cons]
  | paren opening inner closing ih =>
    rw [map, leaves, ih, leaves, List.map_cons, List.map_append, List.map_singleton]

theorem nesting_map (change : Token → Token) (expr : Expr) :
    (expr.map change).nesting = expr.nesting := by
  induction expr with
  | number literal => rfl
  | unary operator operand ih => rw [map, nesting, ih, nesting]
  | binary left operator right ihLeft ihRight => rw [map, nesting, ihLeft, ihRight, nesting]
  | paren opening inner closing ih => rw [map, nesting, ih, nesting]

theorem operatorCount_map (change : Token → Token) (expr : Expr) :
    (expr.map change).operatorCount = expr.operatorCount := by
  induction expr with
  | number literal => rfl
  | unary operator operand ih => rw [map, operatorCount, ih, operatorCount]
  | binary left operator right ihLeft ihRight =>
    rw [map, operatorCount, ihLeft, ihRight, operatorCount]
  | paren opening inner closing ih => rw [map, operatorCount, ih, operatorCount]

/-- A tree of a category stays one if its tokens keep their kinds. -/
theorem Derives.map {change : Token → Token} (keeps : ∀ token, (change token).kind = token.kind)
    {category : Category} {expr : Expr} (derived : expr.Derives category) :
    (expr.map change).Derives category := by
  induction derived with
  | number isNumber => exact .number ((keeps _).trans isNumber)
  | paren opens _ closes ih => exact .paren ((keeps _).trans opens) ih ((keeps _).trans closes)
  | @signed operator operand sign _ ih =>
    rw [← keeps operator] at sign
    exact .signed sign ih
  | unaryOfPrimary _ ih => exact .unaryOfPrimary ih
  | @product operator left right _ joins _ ihFirst ihSecond =>
    rw [← keeps operator] at joins
    exact .product ihFirst joins ihSecond
  | termOfUnary _ ih => exact .termOfUnary ih
  | @sum operator left right _ joins _ ihFirst ihSecond =>
    rw [← keeps operator] at joins
    exact .sum ihFirst joins ihSecond
  | exprOfTerm _ ih => exact .exprOfTerm ih

/-- An expression that stands further on. -/
def shift (distance : Nat) (expr : Expr) : Expr := expr.map (Token.shift distance)

/-- **An expression further on evaluates as before**, but that a fault is further on as well. -/
theorem evaluate_shift (distance : Nat) (expr : Expr) :
    (expr.shift distance).evaluate = expr.evaluate.mapError (Located.shift distance) := by
  have content {token token' : Token} (shifted : token' = token.shift distance) :
      token.bare = token'.bare := by rw [shifted, Token.bare_shift]
  have alike := (corresponds_map (Token.bare_shift distance) expr).evaluate content
  rw [← shift] at alike
  generalize expr.evaluate = outcome, (expr.shift distance).evaluate = outcome' at alike ⊢
  cases alike with
  | value value => rfl
  | fault place =>
    obtain ⟨-, -, rfl⟩ := place
    rfl

end Expr

end IntCalc
