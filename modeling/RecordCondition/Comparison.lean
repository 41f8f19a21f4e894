import RecordCondition.Comparator

/-!
# Comparisons of two operands

A written comparison may be a chain.  Here a single link of it is an operand, a
comparator and an operand, each operand an identifier or a literal.  A literal
may stand on the left of an identifier; there are two ways to bring such a link
into the usual order, with the comparator as written or with its converse.
-/

namespace RecordCondition

inductive Operand
  | identifier (name : String)
  | literal (value : Literal)
  deriving DecidableEq, Repr

def Operand.display : Operand → String
  | .identifier name => name
  | .literal value => value.display

structure Comparison where
  left : Operand
  comparator : Comparator
  right : Operand
  deriving DecidableEq, Repr

/-- A literal on the left of an identifier. -/
def Comparison.literalFirst : Comparison → Bool
  | ⟨.literal _, _, .identifier _⟩ => true
  | _ => false

/-- The identifier first and the comparator as written. -/
def Comparison.normalise (comparison : Comparison) : Comparison :=
  if comparison.literalFirst then
    ⟨comparison.right, comparison.comparator, comparison.left⟩
  else
    comparison

/-- The identifier first and the meaning as written. -/
def Comparison.reorient (comparison : Comparison) : Comparison :=
  if comparison.literalFirst then
    ⟨comparison.right, comparison.comparator.converse, comparison.left⟩
  else
    comparison

/-- The name of the field that the comparison is about. -/
def Comparison.field (comparison : Comparison) : String :=
  comparison.normalise.left.display

/-- The text that the field is compared with. -/
def Comparison.value (comparison : Comparison) : String :=
  comparison.normalise.right.display

@[simp] theorem Comparison.reorient_left (comparison : Comparison) :
    comparison.reorient.left = comparison.normalise.left := by
  unfold reorient normalise
  split <;> rfl

@[simp] theorem Comparison.reorient_right (comparison : Comparison) :
    comparison.reorient.right = comparison.normalise.right := by
  unfold reorient normalise
  split <;> rfl

@[simp] theorem Comparison.normalise_comparator (comparison : Comparison) :
    comparison.normalise.comparator = comparison.comparator := by
  unfold normalise
  split <;> rfl

end RecordCondition
