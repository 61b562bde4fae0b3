/-
**The grammar of expressions, as a property of trees.**

    expr    := term (('+' | '-') term)*
    term    := unary (('*' | '/') unary)*
    unary   := ('+' | '-') unary | primary
    primary := number | '(' expr ')'

Both chains associate to the left. `Expr.Derives category` says that a tree is one of the category,
and a tree of a tighter category is also one of every looser category (`Derives.mono`). Two numbers
limit what a parser reads of the grammar: the number of binary operators in a tree
(`operatorCount`), and how far it nests (`nesting`), where signs, parentheses and right operands
each count for one and left operands for nothing.

* `Derives.binary`: an operator joins what it chains on its left to what it takes on its right;
* `Derives.numbers_leaves`: a tree has one number more than it has operators, so the tokens alone
  fix the number of operators.
-/
import IntCalc.Expr.Basic
import IntCalc.Parser.Precedence

namespace IntCalc

/-! ### Measures of trees -/

namespace Expr

/-- The number of binary operators of a tree. -/
def operatorCount : Expr → Nat
  | number _ => 0
  | unary _ operand => operand.operatorCount
  | binary left _ right => left.operatorCount + 1 + right.operatorCount
  | paren _ inner _ => inner.operatorCount

/-- How far a tree nests: the most signs, parentheses and right operands on a way down from its
root. -/
def nesting : Expr → Nat
  | number _ => 0
  | unary _ operand => 1 + operand.nesting
  | binary left _ right => max left.nesting (1 + right.nesting)
  | paren _ inner _ => 1 + inner.nesting

end Expr

/-! ### Categories -/

/-- A category of the grammar. -/
inductive Category where
  | primary
  | unary
  | term
  | expr
  deriving DecidableEq, Repr

/-- The place of a category in the order from tight to loose. -/
def Category.rank : Category → Nat
  | primary => 0
  | unary => 1
  | term => 2
  | expr => 3

namespace Expr

/-- A tree belongs to a category of the grammar. -/
inductive Derives : Category → Expr → Prop
  | number {literal : Token} (isNumber : literal.kind = .number) :
      Derives .primary (.number literal)
  | paren {opening closing : Token} {inner : Expr} (opens : opening.kind = .openParen)
      (derived : Derives .expr inner) (closes : closing.kind = .closeParen) :
      Derives .primary (.paren opening inner closing)
  | signed {operator : Token} {operand : Expr}
      (sign : operator.kind = .plus ∨ operator.kind = .minus) (derived : Derives .unary operand) :
      Derives .unary (.unary operator operand)
  | unaryOfPrimary {expr : Expr} (derived : Derives .primary expr) : Derives .unary expr
  | product {operator : Token} {left right : Expr} (first : Derives .term left)
      (joins : operator.kind = .star ∨ operator.kind = .slash) (second : Derives .unary right) :
      Derives .term (.binary left operator right)
  | termOfUnary {expr : Expr} (derived : Derives .unary expr) : Derives .term expr
  | sum {operator : Token} {left right : Expr} (first : Derives .expr left)
      (joins : operator.kind = .plus ∨ operator.kind = .minus) (second : Derives .term right) :
      Derives .expr (.binary left operator right)
  | exprOfTerm {expr : Expr} (derived : Derives .term expr) : Derives .expr expr

namespace Derives

/-- A tree of a category is one of every looser category. -/
theorem mono {expr : Expr} : ∀ {category looser : Category}, Derives category expr →
    category.rank ≤ looser.rank → Derives looser expr
  | .primary, .primary, derived, _ => derived
  | .primary, .unary, derived, _ => .unaryOfPrimary derived
  | .primary, .term, derived, _ => .termOfUnary (.unaryOfPrimary derived)
  | .primary, .expr, derived, _ => .exprOfTerm (.termOfUnary (.unaryOfPrimary derived))
  | .unary, .unary, derived, _ => derived
  | .unary, .term, derived, _ => .termOfUnary derived
  | .unary, .expr, derived, _ => .exprOfTerm (.termOfUnary derived)
  | .term, .term, derived, _ => derived
  | .term, .expr, derived, _ => .exprOfTerm derived
  | .expr, .expr, derived, _ => derived

/-- **One number more than operators.** -/
theorem numbers_leaves {category : Category} {expr : Expr} (derived : Derives category expr) :
    expr.leaves.countP (·.kind = .number) = expr.operatorCount + 1 := by
  induction derived with
  | number isNumber => simp [leaves, operatorCount, isNumber]
  | paren opens _ closes ih => simp [leaves, operatorCount, opens, closes, ih]
  | signed sign _ ih =>
    rcases sign with sign | sign
    all_goals simp [leaves, operatorCount, sign, ih]
  | product _ joins _ first second | sum _ joins _ first second =>
    rcases joins with joins | joins
    all_goals simp [leaves, operatorCount, joins, first, second]; omega
  | unaryOfPrimary _ ih | termOfUnary _ ih | exprOfTerm _ ih => exact ih

end Derives

end Expr

/-! ### Categories and precedences -/

namespace Precedence

/-- What is read as an operand at a precedence. -/
def category : Precedence → Category
  | lowest => .expr
  | sum => .term
  | product => .unary
  | sign => .unary

/-- What an operator of a precedence is chained to on its left. -/
def chained : Precedence → Category
  | lowest => .expr
  | sum => .expr
  | product => .term
  | sign => .unary

theorem ofBinary?_eq_sum_iff {kind : Token.Kind} :
    ofBinary? kind = some sum ↔ kind = .plus ∨ kind = .minus := by
  cases kind <;> simp [ofBinary?]

theorem ofBinary?_eq_product_iff {kind : Token.Kind} :
    ofBinary? kind = some product ↔ kind = .star ∨ kind = .slash := by
  cases kind <;> simp [ofBinary?]

theorem isSign_iff {kind : Token.Kind} : isSign kind = true ↔ kind = .plus ∨ kind = .minus := by
  cases kind <;> simp [isSign]

theorem above?_eq_some_iff {outer precedence : Precedence} {kind : Token.Kind} :
    outer.above? kind = some precedence ↔
      ofBinary? kind = some precedence ∧ outer.rank < precedence.rank := by
  simp [above?, Option.filter_eq_some_iff]

/-- Of two operators the one that does not go on with the other's operand binds no more tightly. -/
theorem rank_le_of_above? {outer precedence : Precedence} {kind : Token.Kind}
    (joins : ofBinary? kind = some precedence) (ends : outer.above? kind = none) :
    precedence.rank ≤ outer.rank := by
  simpa [above?, joins] using ends

theorem rank_chained_le_category {outer precedence : Precedence}
    (tighter : outer.rank < precedence.rank) :
    precedence.chained.rank ≤ outer.category.rank := by
  revert tighter
  cases outer <;> cases precedence <;> decide

/-- A chain can be gone on with by every operator that binds no more tightly. -/
theorem rank_chained_le_chained {tighter precedence : Precedence}
    (le : precedence.rank ≤ tighter.rank) : tighter.chained.rank ≤ precedence.chained.rank := by
  revert le
  cases tighter <;> cases precedence <;> decide

end Precedence

/-- An operator joins what it is chained to on its left to what it takes on its right. -/
theorem Expr.Derives.binary {operator : Token} {precedence : Precedence} {left right : Expr}
    (joins : Precedence.ofBinary? operator.kind = some precedence)
    (first : Derives precedence.chained left) (second : Derives precedence.category right) :
    Derives precedence.chained (.binary left operator right) := by
  cases precedence with
  | sum => exact .sum first (Precedence.ofBinary?_eq_sum_iff.mp joins) second
  | product => exact .product first (Precedence.ofBinary?_eq_product_iff.mp joins) second
  | lowest | sign => cases equal : operator.kind <;> simp [equal, Precedence.ofBinary?] at joins

end IntCalc
