/-
**Where a tree exceeds a limit.**

A tree may have more operators than a limit allows and may nest deeper than another does. Its leaves
stand in a row, so there is a first leaf that is past one of the limits: the operator that is one
too many, or the first leaf of a part that lies too many levels down, whichever comes first
(`Expr.Exceeds`).

A reader from left to right does not know the whole tree. It meets the same leaf by rules that go
down the tree once (`Expr.BreaksOff`): a left operand is gone through before its operator, the
operator before the right operand, and each takes from the operators that are allowed.

* `exists_breaksOff`: the rules lead to a leaf in every tree that exceeds a limit;
* `BreaksOff.exceeds`: that leaf is the first one past a limit;
* `Exceeds.unique`: there is only one first leaf, and one limit that it is past.
-/
import IntCalc.Fault
import IntCalc.Proofs.Grammar

namespace IntCalc.Expr

/-! ### Places among the leaves -/

/-- The places of the binary operators among the leaves of a tree, from left to right. -/
def operatorPlaces : Expr → List Nat
  | number _ => []
  | unary _ operand => operand.operatorPlaces.map (1 + ·)
  | binary left _ right =>
    left.operatorPlaces ++
      left.leaves.length :: right.operatorPlaces.map (left.leaves.length + 1 + ·)
  | paren _ inner _ => inner.operatorPlaces.map (1 + ·)

/-- A part lies so many levels down in a tree, and its first leaf has the given place among the
leaves of the tree. Signs, parentheses and right operands each go down a level. -/
inductive Within (part : Expr) : Expr → Nat → Nat → Prop
  | here : Within part part 0 0
  | sign {operator : Token} {operand : Expr} {levels place : Nat}
      (inside : Within part operand levels place) :
      Within part (.unary operator operand) (levels + 1) (1 + place)
  | left {operator : Token} {left right : Expr} {levels place : Nat}
      (inside : Within part left levels place) :
      Within part (.binary left operator right) levels place
  | right {operator : Token} {left right : Expr} {levels place : Nat}
      (inside : Within part right levels place) :
      Within part (.binary left operator right) (levels + 1) (left.leaves.length + 1 + place)
  | inner {opening closing : Token} {inner : Expr} {levels place : Nat}
      (inside : Within part inner levels place) :
      Within part (.paren opening inner closing) (levels + 1) (1 + place)

theorem leaves_ne_nil (expr : Expr) : expr.leaves ≠ [] := by
  cases expr <;> simp [leaves]

theorem length_operatorPlaces (tree : Expr) : tree.operatorPlaces.length = tree.operatorCount := by
  induction tree with
  | number literal => rfl
  | unary operator operand ih => simp [operatorPlaces, operatorCount, ih]
  | binary left operator right ihLeft ihRight =>
    simp only [operatorPlaces, operatorCount, List.length_append, List.length_cons, List.length_map,
      ihLeft, ihRight]
    omega
  | paren opening inner closing ih => simp [operatorPlaces, operatorCount, ih]

theorem lt_length_of_mem_operatorPlaces {tree : Expr} {place : Nat}
    (member : place ∈ tree.operatorPlaces) : place < tree.leaves.length := by
  induction tree generalizing place with
  | number literal => cases member
  | unary operator operand ih | paren opening operand closing ih =>
    obtain ⟨inside, member', rfl⟩ := List.mem_map.mp member
    have before := ih member'
    simp only [leaves, List.length_cons, List.length_append]
    omega
  | binary left operator right ihLeft ihRight =>
    simp only [leaves, List.length_append, List.length_cons]
    rcases List.mem_append.mp member with first | second
    · have before := ihLeft first
      omega
    · rcases List.mem_cons.mp second with rfl | behind
      · omega
      · obtain ⟨inside, member', rfl⟩ := List.mem_map.mp behind
        have before := ihRight member'
        omega

section Binary

variable {left right : Expr} {operator : Token}

/-- The operator between two trees comes behind as many others as the left one has. -/
theorem getElem?_operatorPlaces_own :
    (binary left operator right).operatorPlaces[left.operatorCount]? =
      some left.leaves.length := by
  rw [operatorPlaces, ← length_operatorPlaces, List.getElem?_append_right (Nat.le_refl _),
    Nat.sub_self]
  rfl

theorem getElem?_operatorPlaces_right (count : Nat) :
    (binary left operator right).operatorPlaces[left.operatorCount + 1 + count]? =
      right.operatorPlaces[count]?.map (left.leaves.length + 1 + ·) := by
  rw [operatorPlaces, ← length_operatorPlaces, Nat.add_assoc,
    List.getElem?_append_right (Nat.le_add_right _ _), Nat.add_sub_cancel_left, Nat.add_comm 1,
    List.getElem?_cons_succ, List.getElem?_map]

/-- An operator is one of the left tree, or stands behind it. -/
theorem getElem?_operatorPlaces_left {count place : Nat}
    (found : (binary left operator right).operatorPlaces[count]? = some place) :
    left.operatorPlaces[count]? = some place ∨ left.leaves.length ≤ place := by
  rw [operatorPlaces, List.getElem?_append] at found
  split at found
  · exact .inl found
  · rcases List.mem_cons.mp (List.mem_of_getElem? found) with rfl | behind
    · exact .inr (Nat.le_refl _)
    · obtain ⟨inside, -, rfl⟩ := List.mem_map.mp behind
      exact .inr (by omega)

end Binary

namespace Within

variable {part whole : Expr} {levels place : Nat}

/-- As many leaves of the tree stand before those of the part as its place says. -/
theorem exists_leaves_eq (within : Within part whole levels place) :
    ∃ before behind, whole.leaves = before ++ part.leaves ++ behind ∧ before.length = place := by
  induction within with
  | here => exact ⟨[], [], by simp, rfl⟩
  | @sign operator operand _ _ _ ih =>
    obtain ⟨before, behind, split, rfl⟩ := ih
    exact ⟨operator :: before, behind, by simp [leaves, split], by simp; omega⟩
  | @left operator _ right _ _ _ ih =>
    obtain ⟨before, behind, split, rfl⟩ := ih
    exact ⟨before, behind ++ operator :: right.leaves, by simp [leaves, split], rfl⟩
  | @right operator left _ _ _ _ ih =>
    obtain ⟨before, behind, split, rfl⟩ := ih
    exact ⟨left.leaves ++ operator :: before, behind, by simp [leaves, split], by simp; omega⟩
  | @inner opening closing _ _ _ _ ih =>
    obtain ⟨before, behind, split, rfl⟩ := ih
    exact ⟨opening :: before, behind ++ [closing], by simp [leaves, split], by simp; omega⟩

theorem lt_length (within : Within part whole levels place) : place < whole.leaves.length := by
  obtain ⟨before, behind, split, rfl⟩ := within.exists_leaves_eq
  have some : 0 < part.leaves.length := List.length_pos_iff.mpr part.leaves_ne_nil
  rw [split, List.length_append, List.length_append]
  omega

/-- No part lies deeper than the tree nests. -/
theorem le_nesting (within : Within part whole levels place) : levels ≤ whole.nesting := by
  induction within with
  | here => exact Nat.zero_le _
  | sign _ ih | left _ ih | right _ ih | inner _ ih =>
    simp only [nesting]
    omega

end Within

/-! ### The first leaf past a limit -/

/-- **A tree exceeds a limit at a place**, which is the first one where it does: that of the operator
behind so many others, if no part that lies too deep begins before it, or else that of the first
part that lies so many levels down. -/
inductive Exceeds (tree : Expr) (levels budget : Nat) : ParseFault → Nat → Prop
  | tooLong {place : Nat} (operator : tree.operatorPlaces[budget]? = some place)
      (first : ∀ part deep, Within part tree levels deep → place < deep) :
      Exceeds tree levels budget .tooLong place
  | tooDeep {part : Expr} {place : Nat} (deep : Within part tree levels place)
      (first : ∀ other place', Within other tree levels place' → place ≤ place')
      (notAfter : ∀ operator, tree.operatorPlaces[budget]? = some operator → place ≤ operator) :
      Exceeds tree levels budget .tooDeep place

namespace Exceeds

variable {tree part whole : Expr} {levels levels' budget budget' place place' : Nat}
  {cause cause' : ParseFault}

/-- **There is one first place**, and one limit that is exceeded there. -/
theorem unique (exceeds : tree.Exceeds levels budget cause place)
    (exceeds' : tree.Exceeds levels budget cause' place') : cause = cause' ∧ place = place' := by
  cases exceeds with
  | tooLong operator first =>
    cases exceeds' with
    | tooLong operator' _ => exact ⟨rfl, Option.some.inj (operator.symm.trans operator')⟩
    | tooDeep deep _ notAfter =>
      exact absurd (notAfter _ operator) (Nat.not_le_of_lt (first _ _ deep))
  | tooDeep deep first notAfter =>
    cases exceeds' with
    | tooLong operator first' =>
      exact absurd (notAfter _ operator) (Nat.not_le_of_lt (first' _ _ deep))
    | tooDeep deep' first' _ => exact ⟨rfl, Nat.le_antisymm (first _ _ deep') (first' _ _ deep)⟩

theorem lt_length (exceeds : tree.Exceeds levels budget cause place) :
    place < tree.leaves.length := by
  cases exceeds with
  | tooLong operator _ => exact lt_length_of_mem_operatorPlaces (List.mem_of_getElem? operator)
  | tooDeep deep _ _ => exact deep.lt_length

/-- What a tree is said to be at a place, too long or too deep, it is. -/
theorem cause_eq (exceeds : tree.Exceeds levels budget cause place) :
    cause = .tooLong ∧ budget < tree.operatorCount ∨ cause = .tooDeep ∧ levels ≤ tree.nesting := by
  cases exceeds with
  | tooLong operator _ =>
    refine .inl ⟨rfl, ?_⟩
    rw [← length_operatorPlaces]
    exact (List.getElem?_eq_some_iff.mp operator).1
  | tooDeep deep _ _ => exact .inr ⟨rfl, deep.le_nesting⟩

/-- A tree exceeds the limits where a part of it does, if all that is past them lies in that part. -/
theorem shift (before : Nat)
    (operators : whole.operatorPlaces[budget']? = part.operatorPlaces[budget]?.map (before + ·))
    (deeps : ∀ inside place', Within inside whole levels' place' ↔
      ∃ place, Within inside part levels place ∧ place' = before + place)
    (exceeds : part.Exceeds levels budget cause place) :
    whole.Exceeds levels' budget' cause (before + place) := by
  cases exceeds with
  | tooLong operator first =>
    refine .tooLong (by rw [operators, operator]; rfl) fun inside deep within => ?_
    obtain ⟨place', within', rfl⟩ := (deeps inside deep).mp within
    exact Nat.add_lt_add_left (first _ _ within') before
  | tooDeep deep first notAfter =>
    refine .tooDeep ((deeps _ _).mpr ⟨_, deep, rfl⟩) (fun other place' within => ?_)
      fun operator found => ?_
    · obtain ⟨place', within', rfl⟩ := (deeps other place').mp within
      exact Nat.add_le_add_left (first _ _ within') before
    · rw [operators] at found
      obtain ⟨operator', found', rfl⟩ := Option.map_eq_some_iff.mp found
      exact Nat.add_le_add_left (notAfter _ found') before

end Exceeds

/-! ### Going down the tree once -/

/-- **Reading a tree breaks off at a place**, by the rules of a reader that goes from left to right
with so many levels and so many operators left. -/
inductive BreaksOff : Nat → Nat → Expr → ParseFault → Nat → Prop
  | tooDeep {budget : Nat} {tree : Expr} : BreaksOff 0 budget tree .tooDeep 0
  | sign {levels budget place : Nat} {cause : ParseFault} {operator : Token} {operand : Expr}
      (inside : BreaksOff levels budget operand cause place) :
      BreaksOff (levels + 1) budget (.unary operator operand) cause (1 + place)
  | inner {levels budget place : Nat} {cause : ParseFault} {opening closing : Token} {inner : Expr}
      (inside : BreaksOff levels budget inner cause place) :
      BreaksOff (levels + 1) budget (.paren opening inner closing) cause (1 + place)
  | left {levels budget place : Nat} {cause : ParseFault} {operator : Token} {left right : Expr}
      (inside : BreaksOff (levels + 1) budget left cause place) :
      BreaksOff (levels + 1) budget (.binary left operator right) cause place
  | tooLong {levels : Nat} {operator : Token} {left right : Expr}
      (shallow : left.nesting ≤ levels) :
      BreaksOff (levels + 1) left.operatorCount (.binary left operator right) .tooLong
        left.leaves.length
  | right {levels budget place : Nat} {cause : ParseFault} {operator : Token} {left right : Expr}
      (shallow : left.nesting ≤ levels) (inside : BreaksOff levels budget right cause place) :
      BreaksOff (levels + 1) (left.operatorCount + 1 + budget) (.binary left operator right) cause
        (left.leaves.length + 1 + place)

/-- **Reading breaks off in every tree that exceeds a limit.** -/
theorem exists_breaksOff {tree : Expr} {levels budget : Nat}
    (beyond : budget < tree.operatorCount ∨ levels ≤ tree.nesting) :
    ∃ cause place, BreaksOff levels budget tree cause place := by
  induction tree generalizing levels budget with
  | number literal =>
    cases levels with
    | zero => exact ⟨_, _, .tooDeep⟩
    | succ levels => simp [operatorCount, nesting] at beyond
  | unary operator operand ih =>
    cases levels with
    | zero => exact ⟨_, _, .tooDeep⟩
    | succ levels =>
      simp only [operatorCount, nesting] at beyond
      obtain ⟨cause, place, inside⟩ := @ih levels budget (beyond.imp_right fun deep => by omega)
      exact ⟨cause, _, .sign inside⟩
  | binary left operator right ihLeft ihRight =>
    cases levels with
    | zero => exact ⟨_, _, .tooDeep⟩
    | succ levels =>
      simp only [operatorCount, nesting] at beyond
      by_cases early : budget < left.operatorCount ∨ levels + 1 ≤ left.nesting
      · obtain ⟨cause, place, inside⟩ := ihLeft early
        exact ⟨cause, place, .left inside⟩
      · -- the left operand is within both limits, so the excess lies at the operator or behind it
        have few : left.operatorCount ≤ budget := by omega
        have shallow : left.nesting ≤ levels := by omega
        rcases Nat.eq_or_lt_of_le few with rfl | more
        · exact ⟨_, _, .tooLong shallow⟩
        · obtain ⟨others, rfl⟩ := Nat.exists_eq_add_of_le more
          obtain ⟨cause, place, inside⟩ := @ihRight levels others (by omega)
          exact ⟨cause, _, .right shallow inside⟩
  | paren opening inner closing ih =>
    cases levels with
    | zero => exact ⟨_, _, .tooDeep⟩
    | succ levels =>
      simp only [operatorCount, nesting] at beyond
      obtain ⟨cause, place, inside⟩ := @ih levels budget (beyond.imp_right fun deep => by omega)
      exact ⟨cause, _, .inner inside⟩

/-- **Where reading breaks off is the first place past a limit.** -/
theorem BreaksOff.exceeds {tree : Expr} {levels budget place : Nat} {cause : ParseFault}
    (breaks : BreaksOff levels budget tree cause place) :
    tree.Exceeds levels budget cause place := by
  induction breaks with
  | tooDeep => exact .tooDeep .here (fun _ _ _ => Nat.zero_le _) fun _ _ => Nat.zero_le _
  | sign _ ih =>
    refine ih.shift 1 (by simp [operatorPlaces]) fun inside place' => ⟨fun within => ?_, ?_⟩
    · cases within with
      | sign within => exact ⟨_, within, rfl⟩
    · rintro ⟨place, within, rfl⟩
      exact .sign within
  | inner _ ih =>
    refine ih.shift 1 (by simp [operatorPlaces]) fun inside place' => ⟨fun within => ?_, ?_⟩
    · cases within with
      | inner within => exact ⟨_, within, rfl⟩
    · rintro ⟨place, within, rfl⟩
      exact .inner within
  | left _ ih =>
    -- all that is past a limit outside the left operand comes behind it
    have before := ih.lt_length
    cases ih with
    | tooLong found first =>
      refine .tooLong ?_ fun inside deep within => ?_
      · rw [operatorPlaces, List.getElem?_append_left (List.getElem?_eq_some_iff.mp found).1]
        exact found
      · cases within with
        | left within => exact first _ _ within
        | right within => omega
    | tooDeep deep first notAfter =>
      refine .tooDeep (.left deep) (fun inside place' within => ?_) fun operator found => ?_
      · cases within with
        | left within => exact first _ _ within
        | right within => omega
      · rcases getElem?_operatorPlaces_left found with found' | behind
        · exact notAfter _ found'
        · omega
  | tooLong shallow =>
    refine .tooLong getElem?_operatorPlaces_own fun inside deep within => ?_
    cases within with
    | left within =>
      have deep := within.le_nesting
      omega
    | right within => omega
  | @right levels budget place cause operator left right shallow _ ih =>
    refine ih.shift _ (getElem?_operatorPlaces_right _) fun inside place' => ⟨fun within => ?_, ?_⟩
    · cases within with
      | left within =>
        have deep := within.le_nesting
        omega
      | right within => exact ⟨_, within, rfl⟩
    · rintro ⟨place, within, rfl⟩
      exact .right within

end IntCalc.Expr
