/-
**Trees that correspond token by token.**

A token is bare without its place and its text: what is left is its kind and its value. Two trees
correspond if they have the same form, with operators that are related one by one and other tokens
that are the same when bare (`Expr.Corresponds`). If related tokens are the same when bare, the bare
trees are equal (`Corresponds.bare_eq`), and the trees evaluate alike: to the same value, or to the
same fault at related operators (`Corresponds.evaluate`).
-/
import IntCalc.Expr.Eval
import IntCalc.Proofs.Subexpressions

namespace IntCalc

/-! ### Changed tokens -/

namespace Token

/-- What a token means: all of it but its place and its text. -/
def bare (token : Token) : Token := ⟨token.kind, 0, "", token.value⟩

theorem kind_eq_of_bare_eq {token token' : Token} (same : token.bare = token'.bare) :
    token.kind = token'.kind :=
  (Token.mk.inj same).1

theorem value_eq_of_bare_eq {token token' : Token} (same : token.bare = token'.bare) :
    token.value = token'.value :=
  (Token.mk.inj same).2.2.2

end Token

namespace Expr

/-- An expression with its tokens changed. -/
def map (change : Token → Token) : Expr → Expr
  | number literal => number (change literal)
  | unary operator operand => unary (change operator) (operand.map change)
  | binary left operator right => binary (left.map change) (change operator) (right.map change)
  | paren opening inner closing => paren (change opening) (inner.map change) (change closing)

/-- An expression without the places and the texts of its tokens. -/
def bare (expr : Expr) : Expr := expr.map Token.bare

/-! ### Corresponding trees -/

/-- **Two expressions have the same form**, with related operators and other tokens that are the
same when bare. -/
inductive Corresponds (related : Token → Token → Prop) : Expr → Expr → Prop
  | number {literal literal' : Token} (literals : literal.bare = literal'.bare) :
      Corresponds related (number literal) (number literal')
  | unary {operator operator' : Token} {operand operand' : Expr}
      (operators : related operator operator') (operands : Corresponds related operand operand') :
      Corresponds related (unary operator operand) (unary operator' operand')
  | binary {left left' right right' : Expr} {operator operator' : Token}
      (lefts : Corresponds related left left') (operators : related operator operator')
      (rights : Corresponds related right right') :
      Corresponds related (binary left operator right) (binary left' operator' right')
  | paren {opening opening' closing closing' : Token} {inner inner' : Expr}
      (openings : opening.bare = opening'.bare) (inners : Corresponds related inner inner')
      (closings : closing.bare = closing'.bare) :
      Corresponds related (paren opening inner closing) (paren opening' inner' closing')

/-- An expression corresponds to what becomes of it if its tokens are changed. -/
theorem corresponds_map {change : Token → Token} (keeps : ∀ token, (change token).bare = token.bare)
    (expr : Expr) : Corresponds (fun token token' => token' = change token) expr (expr.map change) := by
  induction expr with
  | number literal => exact .number (keeps literal).symm
  | unary operator operand ih => exact .unary rfl ih
  | binary left operator right ihLeft ihRight => exact .binary ihLeft rfl ihRight
  | paren opening inner closing ih => exact .paren (keeps opening).symm ih (keeps closing).symm

/-! ### Operators -/

/-- The operators that an expression applies, in that order. -/
def operators (expr : Expr) : List Token := expr.subexpressions.filterMap operator?

theorem operators_eq (expr : Expr) :
    expr.operators = expr.operands.flatMap operators ++ expr.operator?.toList := by
  rw [operators, subexpressions_eq, List.filterMap_append, List.filterMap_flatMap]
  rfl

theorem operators_subset_of_mem_operands {expr operand : Expr} (member : operand ∈ expr.operands) :
    operand.operators ⊆ expr.operators := by
  intro operator inside
  rw [operators_eq]
  exact List.mem_append_left _ (List.mem_flatMap.mpr ⟨operand, member, inside⟩)

theorem mem_operators_of_operator? {expr : Expr} {operator : Token}
    (own : expr.operator? = some operator) : operator ∈ expr.operators := by
  rw [operators_eq, own]
  exact List.mem_append_right _ List.mem_cons_self

/-- Two spans are those of related operators of two expressions. -/
inductive AtOperators (related : Token → Token → Prop) (expr expr' : Expr) : Span → Span → Prop
  | intro {operator operator' : Token} (inside : operator ∈ expr.operators)
      (inside' : operator' ∈ expr'.operators) (operators : related operator operator') :
      AtOperators related expr expr' operator.span operator'.span

theorem AtOperators.of_operand {related : Token → Token → Prop} {expr expr' operand operand' : Expr}
    (member : operand ∈ expr.operands) (member' : operand' ∈ expr'.operands) {span span' : Span}
    (within : AtOperators related operand operand' span span') :
    AtOperators related expr expr' span span' := by
  obtain ⟨inside, inside', operators⟩ := within
  exact .intro (operators_subset_of_mem_operands member inside)
    (operators_subset_of_mem_operands member' inside') operators

end Expr

/-! ### Evaluations -/

/-- **Two evaluations end alike**: with the same value, or with the same fault at related places. -/
inductive Evaluation.Alike (places : Span → Span → Prop) : Evaluation → Evaluation → Prop
  | value (value : Value) : Alike places (.ok value) (.ok value)
  | fault {cause : EvalFault} {span span' : Span} (place : places span span') :
      Alike places (.error ⟨cause, span⟩) (.error ⟨cause, span'⟩)

namespace Evaluation.Alike

variable {places : Span → Span → Prop}

theorem mono {looser : Span → Span → Prop} {first first' : Evaluation}
    (alike : Alike places first first')
    (implies : ∀ {span span'}, places span span' → looser span span') :
    Alike looser first first' := by
  cases alike with
  | value value => exact .value value
  | fault place => exact .fault (implies place)

theorem bind {first first' : Evaluation} {next next' : Value → Evaluation}
    (alike : Alike places first first') (goesOn : ∀ value, Alike places (next value) (next' value)) :
    Alike places (first >>= next) (first' >>= next') := by
  cases alike with
  | value value => exact goesOn value
  | fault place => exact .fault place

variable {operator operator' : Token} (kinds : operator.kind = operator'.kind)
  (place : places operator.span operator'.span)

include place in
theorem checked (result : Option Value) :
    Alike places (operator.checked result) (operator'.checked result) := by
  cases result with
  | some value => exact .value value
  | none => exact .fault place

include kinds place

/-- Signs of the same kind do the same. -/
theorem applySign (operand : Value) :
    Alike places (operator.applySign operand) (operator'.applySign operand) := by
  unfold Token.applySign
  rw [kinds]
  cases operator'.kind with
  | plus => exact .value operand
  | minus => exact checked place _
  | number | star | slash | openParen | closeParen | whitespace | invalid | endOfFile =>
    exact .fault place

/-- Operators of the same kind do the same. -/
theorem applyBinary (left right : Value) :
    Alike places (operator.applyBinary left right) (operator'.applyBinary left right) := by
  unfold Token.applyBinary
  rw [kinds]
  cases operator'.kind with
  | plus | minus | star => exact checked place _
  | slash =>
    by_cases zero : right.toInt = 0
    · simp only [if_pos zero]
      exact .fault place
    · simp only [if_neg zero]
      exact checked place _
  | number | openParen | closeParen | whitespace | invalid | endOfFile => exact .fault place

end Evaluation.Alike

namespace Expr.Corresponds

variable {related : Token → Token → Prop} {expr expr' : Expr}
  (content : ∀ {token token'}, related token token' → token.bare = token'.bare)

include content

/-- Without places and texts, expressions that correspond are equal. -/
theorem bare_eq (corresponds : Corresponds related expr expr') : expr.bare = expr'.bare := by
  unfold bare
  induction corresponds with
  | number literals => rw [map, map, literals]
  | unary operators _ ih => rw [map, map, content operators, ih]
  | binary _ operators _ ihLeft ihRight => rw [map, map, content operators, ihLeft, ihRight]
  | paren openings _ closings ih => rw [map, map, openings, closings, ih]

/-- **Expressions that correspond evaluate alike**, with faults at related operators. -/
theorem evaluate (corresponds : Corresponds related expr expr') :
    Evaluation.Alike (AtOperators related expr expr') expr.evaluate expr'.evaluate := by
  induction corresponds with
  | @number literal literal' literals =>
    rw [evaluate_number, evaluate_number, Token.value_eq_of_bare_eq literals]
    exact .value _
  | @unary operator operator' operand operand' operators _ ih =>
    have kinds : operator.kind = operator'.kind := Token.kind_eq_of_bare_eq (content operators)
    rw [evaluate_unary, evaluate_unary]
    refine (ih.mono (.of_operand List.mem_cons_self List.mem_cons_self)).bind fun value => ?_
    exact .applySign kinds (.intro (mem_operators_of_operator? rfl) (mem_operators_of_operator? rfl)
      operators) value
  | @binary left left' right right' operator operator' _ operators _ ihLeft ihRight =>
    have kinds : operator.kind = operator'.kind := Token.kind_eq_of_bare_eq (content operators)
    have second : right ∈ (Expr.binary left operator right).operands :=
      List.mem_cons_of_mem _ List.mem_cons_self
    have second' : right' ∈ (Expr.binary left' operator' right').operands :=
      List.mem_cons_of_mem _ List.mem_cons_self
    rw [evaluate_binary, evaluate_binary]
    refine (ihLeft.mono (.of_operand List.mem_cons_self List.mem_cons_self)).bind fun first => ?_
    refine (ihRight.mono (.of_operand second second')).bind fun last => ?_
    exact .applyBinary kinds (.intro (mem_operators_of_operator? rfl)
      (mem_operators_of_operator? rfl) operators) first last
  | paren _ _ _ ih =>
    rw [evaluate_paren, evaluate_paren]
    exact ih.mono (.of_operand List.mem_cons_self List.mem_cons_self)

end Expr.Corresponds

end IntCalc
