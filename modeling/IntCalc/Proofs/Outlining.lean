/-
**Outlines show trees as they are.**

A walk through a tree meets an expression before its parts, and these in their order. Each visit
knows whether the part is the last one of the expression around it, and the same of all that is
around it (`Part.visits`). The outline has one line for each visit, in that order, and the line says
what is visited and where it belongs (`outlineFrom_eq`).

So an outline tells all of a tree but the places and the texts of its tokens (`pretty_faithful`).
The first line of an expression tells its form, and with it which lines follow, so the lines of an
expression can be told from those behind them (`bare_eq_of_outlineFrom`). A label tells the kind of
a token from its value, since no name of a kind starts with another
(`Token.Kind.eq_of_name_prefix`).
-/
import IntCalc.Expr.Outline
import IntCalc.Proofs.Correspondence
import IntCalc.Proofs.Underlining
import Mathlib

namespace IntCalc

/-! ### Visits -/

namespace Expr

/-- A part of a tree as a walk meets it. -/
structure Visit where
  part : Part
  /-- Whether the part is the root or the last part of the expression around it. -/
  isLast : Bool
  /-- The same of each expression around the part, from the root on. -/
  around : List Bool

namespace Part

theorem sizeOf_lt_of_mem_parts {expr : Expr} {part : Part} (member : part ∈ expr.parts) :
    sizeOf part < sizeOf (node expr) := by
  cases expr <;> grind [parts]

/-- The visits to a part and to all parts below it. The parts of an expression are visited behind it,
and the last of them is the one whose index is the greatest. -/
def visits (around : List Bool) (isLast : Bool) : Part → List Visit
  | leaf token => [⟨.leaf token, isLast, around⟩]
  | node expr =>
    ⟨.node expr, isLast, around⟩ :: expr.parts.attach.zipIdx.flatMap fun entry =>
      entry.1.1.visits (around ++ [isLast]) (entry.2 + 1 = expr.parts.length)
termination_by part => sizeOf part
decreasing_by exact sizeOf_lt_of_mem_parts entry.1.2

theorem visits_node (around : List Bool) (isLast : Bool) (expr : Expr) :
    (node expr).visits around isLast =
      ⟨.node expr, isLast, around⟩ :: expr.parts.zipIdx.flatMap fun entry =>
        entry.1.visits (around ++ [isLast]) (entry.2 + 1 = expr.parts.length) := by
  have entries : expr.parts.zipIdx = expr.parts.attach.zipIdx.map (Prod.map Subtype.val id) := by
    rw [← List.zipIdx_map, List.attach_map_subtype_val]
  rw [visits, entries, List.flatMap_map]
  rfl

section Forms

variable (around : List Bool) (isLast : Bool)

@[simp]
theorem visits_leaf (token : Token) :
    (leaf token).visits around isLast = [⟨.leaf token, isLast, around⟩] := by
  rw [visits]

@[simp]
theorem visits_number (literal : Token) :
    (node (.number literal)).visits around isLast =
      [⟨.node (.number literal), isLast, around⟩, ⟨.leaf literal, true, around ++ [isLast]⟩] := by
  rw [visits_node]
  simp [parts]

@[simp]
theorem visits_unary (operator : Token) (operand : Expr) :
    (node (.unary operator operand)).visits around isLast =
      ⟨.node (.unary operator operand), isLast, around⟩ ::
        ⟨.leaf operator, false, around ++ [isLast]⟩ ::
        (node operand).visits (around ++ [isLast]) true := by
  rw [visits_node]
  simp [parts]

@[simp]
theorem visits_binary (left : Expr) (operator : Token) (right : Expr) :
    (node (.binary left operator right)).visits around isLast =
      ⟨.node (.binary left operator right), isLast, around⟩ ::
        ((node left).visits (around ++ [isLast]) false ++
          ⟨.leaf operator, false, around ++ [isLast]⟩ ::
          (node right).visits (around ++ [isLast]) true) := by
  rw [visits_node]
  simp [parts]

@[simp]
theorem visits_paren (opening : Token) (inner : Expr) (closing : Token) :
    (node (.paren opening inner closing)).visits around isLast =
      ⟨.node (.paren opening inner closing), isLast, around⟩ ::
        ⟨.leaf opening, false, around ++ [isLast]⟩ ::
        ((node inner).visits (around ++ [isLast]) false ++
          [⟨.leaf closing, true, around ++ [isLast]⟩]) := by
  rw [visits_node]
  simp [parts]

end Forms

end Part

/-- The visits to all parts of a tree; the root counts as a last part. -/
def visits (expr : Expr) : List Visit := (Part.node expr).visits [] true

namespace Visit

/-- How many expressions are around what is visited. -/
def depth (visit : Visit) : Nat := visit.around.length

/-- A visit as a walk with depths has it. -/
def entry (visit : Visit) : Nat × Part := (visit.depth, visit.part)

@[simp]
theorem entry_mk (part : Part) (isLast : Bool) (around : List Bool) :
    entry ⟨part, isLast, around⟩ = (around.length, part) := rfl

end Visit

/-- **The visits are those of a walk with depths**, and in the same order. -/
theorem map_entry_visits (expr : Expr) (around : List Bool) (isLast : Bool) :
    ((Part.node expr).visits around isLast).map Visit.entry = expr.walk around.length := by
  induction expr generalizing around isLast with
  | number literal => simp [walk]
  | unary operator operand ih => simp [walk, ih]
  | binary left operator right ihLeft ihRight => simp [walk, ihLeft, ihRight]
  | paren opening inner closing ih => simp [walk, ih]

end Expr

/-! ### Lines -/

/-- What stands behind the name of a token's kind: the value, after a blank, if there is one. -/
def Value.suffix : Option Value → String
  | some value => " " ++ value.decimal
  | none => ""

theorem Token.label_eq (token : Token) :
    token.label = token.kind.name ++ Value.suffix token.value := by
  unfold label
  split
  · rename_i value given
    rw [given, Value.suffix, String.append_assoc]
  · rename_i none
    rw [none, Value.suffix, String.append_empty]

namespace Expr

/-- What is said of a part: the form of an expression, the kind and the value of a token. -/
def Part.label : Part → String
  | node expr => expr.kind.name
  | leaf token => token.kind.name ++ Value.suffix token.value

/-- A group of characters for each expression around a part: blanks if that expression is the root
or a last part, else a bar. -/
def groups (around : List Bool) : String :=
  String.join (around.map fun isLast : Bool => if isLast then "    " else "│   ")

@[simp]
theorem groups_append (around : List Bool) (isLast : Bool) :
    groups (around ++ [isLast]) = groups around ++ margin isLast := by
  simp [groups, margin]

theorem length_groups (around : List Bool) : (groups around).length = 4 * around.length := by
  have four (isLast : Bool) : (if isLast then "    " else "│   ").length = 4 := by
    cases isLast <;> decide
  induction around with
  | nil => rfl
  | cons isLast around ih =>
    rw [groups, List.map_cons, String.join_cons, String.length_append, four, List.length_cons]
    rw [groups] at ih
    omega

/-- The line that says what is visited and where it belongs. -/
def Visit.line (visit : Visit) : String :=
  groups visit.around ++ (if visit.isLast then "└──" else "├──") ++ visit.part.label

@[simp]
theorem Visit.line_node (expr : Expr) (isLast : Bool) (around : List Bool) :
    Visit.line ⟨.node expr, isLast, around⟩ = groups around ++ marker isLast ++ expr.kind.name := rfl

@[simp]
theorem Visit.line_leaf (token : Token) (isLast : Bool) (around : List Bool) :
    Visit.line ⟨.leaf token, isLast, around⟩ = tokenLine (groups around) isLast token := by
  rw [tokenLine, Token.label_eq]
  rfl

/-- **An outline has the lines of the visits.** -/
theorem outlineFrom_eq (expr : Expr) (around : List Bool) (isLast : Bool) :
    expr.outlineFrom (groups around) isLast =
      ((Part.node expr).visits around isLast).map Visit.line := by
  induction expr generalizing around isLast with
  | number literal => simp [outlineFrom, kind]
  | unary operator operand ih => simp [outlineFrom, kind, ← ih]
  | binary left operator right ihLeft ihRight => simp [outlineFrom, kind, ← ihLeft, ← ihRight]
  | paren opening inner closing ih => simp [outlineFrom, kind, ← ih]

theorem outline_eq (expr : Expr) : expr.outline = expr.visits.map Visit.line :=
  outlineFrom_eq expr [] true

end Expr

/-! ### Labels -/

/-- No name of a kind starts with another. -/
theorem Token.Kind.eq_of_name_prefix {kind kind' : Token.Kind}
    (starts : kind.name.toList <+: kind'.name.toList) : kind = kind' := by
  have all : ∀ kind ∈ Token.Kind.all, ∀ kind' ∈ Token.Kind.all,
    kind.name.toList <+: kind'.name.toList → kind = kind' := by decide +kernel
  exact all kind kind.mem_all kind' kind'.mem_all starts

theorem Expr.Kind.eq_of_name {kind kind' : Expr.Kind} (same : kind.name = kind'.name) :
    kind = kind' := by
  cases kind <;> cases kind' <;> simp [name] at same ⊢

namespace Value

theorem suffix_some_ne (value : Value) : suffix (some value) ≠ suffix none := by
  intro same
  have lengths := congrArg String.length same
  rw [suffix, String.length_append, Nat.add_comm] at lengths
  exact absurd lengths (Nat.succ_ne_zero _)

theorem suffix_injective : Function.Injective suffix := by
  intro first second same
  cases first with
  | none =>
    cases second with
    | none => rfl
    | some value' => exact absurd same.symm (suffix_some_ne value')
  | some value =>
    cases second with
    | none => exact absurd same (suffix_some_ne value)
    | some value' =>
      have digits : value.toInt.repr = value'.toInt.repr := (String.append_right_inj _).mp same
      rw [Value.ext (Int.repr_injective digits)]

end Value

namespace Token

theorem name_prefix_label (token : Token) : token.kind.name.toList <+: token.label.toList := by
  rw [label_eq, String.toList_append]
  exact List.prefix_append ..

theorem kind_eq_of_label {token token' : Token} (same : token.label = token'.label) :
    token.kind = token'.kind := by
  have starts := token.name_prefix_label
  rw [same] at starts
  rcases List.prefix_or_prefix_of_prefix starts token'.name_prefix_label with shorter | longer
  · exact Kind.eq_of_name_prefix shorter
  · exact (Kind.eq_of_name_prefix longer).symm

/-- **A label tells the kind and the value of a token.** -/
theorem bare_eq_of_label {token token' : Token} (same : token.label = token'.label) :
    token.bare = token'.bare := by
  have kinds := kind_eq_of_label same
  rw [label_eq, label_eq, kinds, String.append_right_inj] at same
  rw [bare, bare, kinds, Value.suffix_injective same]

end Token

/-! ### What an outline tells -/

namespace Expr

theorem tokenLine_bare (indent : String) (isLast : Bool) (token : Token) :
    tokenLine indent isLast token.bare = tokenLine indent isLast token := rfl

/-- Places and texts of tokens are not in an outline. -/
theorem outlineFrom_bare (expr : Expr) (indent : String) (isLast : Bool) :
    expr.bare.outlineFrom indent isLast = expr.outlineFrom indent isLast := by
  unfold bare
  induction expr generalizing indent isLast with
  | number literal => rfl
  | unary operator operand ih => simp only [map, outlineFrom, tokenLine_bare, ih]
  | binary left operator right ihLeft ihRight =>
    simp only [map, outlineFrom, tokenLine_bare, ihLeft, ihRight]
  | paren opening inner closing ih => simp only [map, outlineFrom, tokenLine_bare, ih]

theorem bare_eq_of_tokenLine {indent : String} {isLast : Bool} {token token' : Token}
    (same : tokenLine indent isLast token = tokenLine indent isLast token') :
    token.bare = token'.bare :=
  Token.bare_eq_of_label ((String.append_right_inj _).mp same)

section Lines

variable {indent : String} {isLast : Bool} {rest rest' : List String}

/-- The first line tells the form. -/
theorem kind_eq_of_outlineFrom {first second : Expr}
    (same : first.outlineFrom indent isLast ++ rest = second.outlineFrom indent isLast ++ rest') :
    first.kind = second.kind := by
  have opened (expr : Expr) : ∃ below,
      expr.outlineFrom indent isLast = (indent ++ marker isLast ++ expr.kind.name) :: below := by
    cases expr <;> exact ⟨_, rfl⟩
  obtain ⟨below, front⟩ := opened first
  obtain ⟨below', front'⟩ := opened second
  rw [front, front', List.cons_append, List.cons_append] at same
  exact Kind.eq_of_name ((String.append_right_inj _).mp (List.cons.inj same).1)

/-- **The lines of an expression can be told from those behind them**, and they tell all of the
expression but the places and the texts of its tokens. -/
theorem bare_eq_of_outlineFrom {first second : Expr}
    (same : first.outlineFrom indent isLast ++ rest = second.outlineFrom indent isLast ++ rest') :
    first.bare = second.bare ∧ rest = rest' := by
  -- both expressions have the same form, so the same lines follow, and the parts are read one by one
  induction first generalizing second indent isLast rest rest' with
  | number literal =>
    cases second with
    | number literal' =>
      obtain ⟨-, line, behind⟩ := by
        simpa only [outlineFrom, List.cons_append, List.nil_append, List.cons.injEq] using same
      exact ⟨congrArg number (bare_eq_of_tokenLine line), behind⟩
    | _ => cases kind_eq_of_outlineFrom same
  | unary operator operand ih =>
    cases second with
    | unary operator' operand' =>
      obtain ⟨-, line, below⟩ := by
        simpa only [outlineFrom, List.cons_append, List.cons.injEq] using same
      obtain ⟨operands, behind⟩ := ih below
      exact ⟨congrArg₂ unary (bare_eq_of_tokenLine line) operands, behind⟩
    | _ => cases kind_eq_of_outlineFrom same
  | binary left operator right ihLeft ihRight =>
    cases second with
    | binary left' operator' right' =>
      obtain ⟨-, below⟩ := by
        simpa only [outlineFrom, List.cons_append, List.append_assoc, List.cons.injEq] using same
      obtain ⟨lefts, others⟩ := ihLeft below
      obtain ⟨line, others⟩ := List.cons.inj others
      obtain ⟨rights, behind⟩ := ihRight others
      refine ⟨?_, behind⟩
      show binary left.bare operator.bare right.bare = binary left'.bare operator'.bare right'.bare
      rw [lefts, bare_eq_of_tokenLine line, rights]
    | _ => cases kind_eq_of_outlineFrom same
  | paren opening inner closing ih =>
    cases second with
    | paren opening' inner' closing' =>
      obtain ⟨-, line, below⟩ := by
        simpa only [outlineFrom, List.cons_append, List.append_assoc, List.nil_append,
          List.cons.injEq] using same
      obtain ⟨inners, others⟩ := ih below
      obtain ⟨line', behind⟩ := List.cons.inj others
      refine ⟨?_, behind⟩
      show paren opening.bare inner.bare closing.bare = paren opening'.bare inner'.bare closing'.bare
      rw [bare_eq_of_tokenLine line, inners, bare_eq_of_tokenLine line']
    | _ => cases kind_eq_of_outlineFrom same

end Lines

/-- **An outline tells all of a tree** but the places and the texts of its tokens. -/
theorem outline_eq_iff {first second : Expr} :
    first.outline = second.outline ↔ first.bare = second.bare := by
  constructor
  · intro same
    have followed : first.outlineFrom "" true ++ [] = second.outlineFrom "" true ++ [] := by
      rwa [List.append_nil, List.append_nil]
    exact (bare_eq_of_outlineFrom followed).1
  · intro same
    rw [outline, outline, ← outlineFrom_bare first, same, outlineFrom_bare]

/-! ### Printed outlines -/

theorem single_decimal (value : Value) : '\n' ∉ value.decimal.toList := by
  unfold Value.decimal Int.repr
  split
  · exact single_repr _
  · rw [String.toList_append, List.mem_append, not_or]
    exact ⟨by decide, single_repr _⟩

theorem Part.single_label (part : Part) : '\n' ∉ part.label.toList := by
  cases part with
  | node expr =>
    rw [label]
    cases expr.kind <;> decide
  | leaf token =>
    rw [label, String.toList_append, List.mem_append, not_or]
    refine ⟨token.kind.single_name, ?_⟩
    cases token.value with
    | none => decide
    | some value =>
      rw [Value.suffix, String.toList_append, List.mem_append, not_or]
      exact ⟨by decide, single_decimal value⟩

theorem single_groups (around : List Bool) : '\n' ∉ (groups around).toList := by
  rw [groups, String.toList_join, List.flatMap_map]
  intro member
  obtain ⟨isLast, -, inside⟩ := List.mem_flatMap.mp member
  cases isLast
  all_goals exact absurd inside (by decide)

/-- No line is broken. -/
theorem Visit.single_line (visit : Visit) : '\n' ∉ visit.line.toList := by
  rw [line, String.toList_append, String.toList_append, List.mem_append, List.mem_append, not_or,
    not_or]
  refine ⟨⟨single_groups _, ?_⟩, visit.part.single_label⟩
  cases visit.isLast <;> decide

/-- **The printed outline has the lines of the outline** and nothing behind the last line feed. -/
theorem splitOn_pretty (expr : Expr) :
    expr.pretty.toList.splitOn '\n' = expr.outline.map String.toList ++ [[]] := by
  have ended : expr.pretty.toList = (expr.outline.map String.toList).flatMap (· ++ ['\n']) := by
    rw [pretty, String.toList_join, List.flatMap_map, List.flatMap_map]
    simp only [String.toList_append]
    rfl
  rw [ended]
  refine Text.splitOn_ended fun printed member => ?_
  rw [outline_eq] at member
  obtain ⟨line, listed, rfl⟩ := List.mem_map.mp member
  obtain ⟨visit, -, rfl⟩ := List.mem_map.mp listed
  exact visit.single_line

theorem outline_eq_of_pretty {first second : Expr} (same : first.pretty = second.pretty) :
    first.outline = second.outline := by
  have lines := first.splitOn_pretty
  rw [same, splitOn_pretty] at lines
  have characters := List.append_cancel_right lines
  exact (List.map_injective_iff.mpr fun _ _ => String.toList_injective) characters.symm

/-- **A printed outline shows a tree as it is.** It has a line for each visit of a walk through the
tree, in that order; the line has four characters for each expression around what is visited. Two
trees are printed alike exactly if they differ in nothing but places and texts of tokens. -/
theorem pretty_faithful :
    (∀ expr : Expr,
      expr.visits.map Visit.entry = expr.walk 0 ∧
      expr.pretty.toList.splitOn '\n' = expr.visits.map (·.line.toList) ++ [[]]) ∧
    (∀ visit : Visit, (groups visit.around).length = 4 * visit.depth) ∧
    ∀ first second : Expr, first.pretty = second.pretty ↔ first.bare = second.bare := by
  refine ⟨fun expr => ⟨expr.map_entry_visits [] true, ?_⟩, fun visit => length_groups visit.around,
    fun first second => ⟨fun same => ?_, fun same => ?_⟩⟩
  · rw [splitOn_pretty, outline_eq, List.map_map]
    rfl
  · exact outline_eq_iff.mp (outline_eq_of_pretty same)
  · rw [pretty, pretty, outline_eq_iff.mpr same]

end Expr

end IntCalc
