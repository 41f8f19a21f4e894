/-!
# Cells

The content of a field: a single value, or values within optional places and
lists, nested in any way.  An operator on single values is applied to the values in a
cell until it answers yes; for an empty place and for an empty list it has answers of
its own.  A plain test of single values says no to both, so it never holds of a cell
without values.
-/

namespace RecordCondition

inductive Cell (α : Type)
  | one (value : α)
  | absent
  | present (cell : Cell α)
  | many (cells : List (Cell α))

/-- A test of single values, with its answers where there is none. -/
structure Operator (α : Type) where
  holds : α → Bool
  ofAbsent : Bool := false
  ofEmptyList : Bool := false

namespace Cell

variable {α : Type}

mutual

def apply (operator : Operator α) : Cell α → Bool
  | .one value => operator.holds value
  | .absent => operator.ofAbsent
  | .present cell => cell.apply operator
  | .many [] => operator.ofEmptyList
  | .many (cell :: cells) => cell.apply operator || applyAny operator cells

def applyAny (operator : Operator α) : List (Cell α) → Bool
  | [] => false
  | cell :: cells => cell.apply operator || applyAny operator cells

end

/-- Whether a test holds of some value in the cell. -/
def any (holds : α → Bool) (cell : Cell α) : Bool :=
  cell.apply { holds := holds }

mutual

/-- Every value in a cell, from left to right. -/
def scalars : Cell α → List α
  | .one value => [value]
  | .absent => []
  | .present cell => cell.scalars
  | .many cells => scalarsOf cells

def scalarsOf : List (Cell α) → List α
  | [] => []
  | cell :: cells => cell.scalars ++ scalarsOf cells

end

/-- A cell with a value or with none. -/
def ofOption : Option α → Cell α
  | none => .absent
  | some value => .present (.one value)

@[simp] theorem any_ofOption (holds : α → Bool) (value : Option α) :
    (ofOption value).any holds = value.any holds := by
  cases value <;> simp [ofOption, any, apply]

end Cell

end RecordCondition
