/-
**Values: the integers from −2147483648 to 2147483647.**

An operation is carried out exactly, on the integers, and its result is a value if it lies in the
range and `none` otherwise. Nothing wraps.

* `Value.ofInt?_eq_some_iff`: `ofInt?` answers with the value that stands for its argument;
* `Value.ofInt?_eq_none_iff`: and refuses exactly the integers outside the range.
-/

namespace IntCalc

/-- An integer that fits 32 bits with a sign. -/
@[ext]
structure Value where
  toInt : Int
  least_le : -2147483648 ≤ toInt
  le_greatest : toInt ≤ 2147483647
  deriving DecidableEq

namespace Value

/-! ### From integers and back -/

/-- The value of an integer, if it is in range. -/
def ofInt? (exact : Int) : Option Value :=
  if inRange : -2147483648 ≤ exact ∧ exact ≤ 2147483647 then
    some ⟨exact, inRange.1, inRange.2⟩
  else
    none

theorem ofInt?_eq_some_iff {exact : Int} {value : Value} :
    ofInt? exact = some value ↔ value.toInt = exact := by
  unfold ofInt?
  split
  · simp only [Option.some.injEq, Value.ext_iff]
    exact eq_comm
  · rename_i outside
    simp only [reduceCtorEq, false_iff]
    rintro rfl
    exact outside ⟨value.least_le, value.le_greatest⟩

theorem ofInt?_eq_none_iff {exact : Int} :
    ofInt? exact = none ↔ exact < -2147483648 ∨ 2147483647 < exact := by
  unfold ofInt?
  split
  · simp only [reduceCtorEq, false_iff]
    omega
  · simp only [true_iff]
    omega

@[simp]
theorem ofInt?_toInt (value : Value) : ofInt? value.toInt = some value :=
  ofInt?_eq_some_iff.mpr rfl

def zero : Value := ⟨0, by decide, by decide⟩

def greatest : Value := ⟨2147483647, by decide, by decide⟩

/-- The decimal digits of a value, after a minus sign if it is negative. -/
def decimal (value : Value) : String := value.toInt.repr

instance : ToString Value := ⟨decimal⟩

/-! ### Checked arithmetic -/

/-- The value with the opposite sign; the least value has none. -/
def neg? (value : Value) : Option Value := ofInt? (-value.toInt)

def add? (left right : Value) : Option Value := ofInt? (left.toInt + right.toInt)

def sub? (left right : Value) : Option Value := ofInt? (left.toInt - right.toInt)

def mul? (left right : Value) : Option Value := ofInt? (left.toInt * right.toInt)

/-- The quotient, truncated toward zero; there is none for a zero divisor. -/
def div? (left right : Value) : Option Value :=
  if right.toInt = 0 then none else ofInt? (left.toInt.tdiv right.toInt)

end Value

end IntCalc
