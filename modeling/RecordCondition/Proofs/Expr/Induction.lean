import RecordCondition.Expr

/-!
# Induction over expressions

Values, operands, arguments and elements stand in lists below their expression,
so the principle that comes with the type speaks of lists as well.  The one here
gives a hypothesis for each member of such a list.
-/

namespace RecordCondition

@[elab_as_elim, induction_eliminator]
theorem Expr.induction {motive : Expr → Prop}
    (junction : ∀ op values, (∀ value ∈ values, motive value) →
      motive (.junction op values))
    (compare : ∀ left relations operands, motive left →
      (∀ operand ∈ operands, motive operand) →
      motive (.compare left relations operands))
    (name : ∀ id, motive (.name id))
    (constant : ∀ value, motive (.constant value))
    (prefixed : ∀ op operand, motive operand → motive (.prefixed op operand))
    (binary : ∀ op left right, motive left → motive right →
      motive (.binary op left right))
    (call : ∀ function arguments, motive function →
      (∀ argument ∈ arguments, motive argument) →
      motive (.call function arguments))
    (attributed : ∀ value field, motive value → motive (.attribute value field))
    (subscript : ∀ value index, motive value → motive index →
      motive (.subscript value index))
    (list : ∀ elements, (∀ element ∈ elements, motive element) →
      motive (.list elements))
    (tuple : ∀ elements, (∀ element ∈ elements, motive element) →
      motive (.tuple elements)) :
    ∀ e, motive e := by
  intro e
  refine Expr.rec (motive_1 := motive)
    (motive_2 := fun values => ∀ value ∈ values, motive value)
    junction compare name constant prefixed binary call attributed subscript
    list tuple ?_ ?_ e
  · intro value hmem
    exact absurd hmem List.not_mem_nil
  · intro head tail hhead htail value hmem
    rcases List.mem_cons.mp hmem with rfl | hmem
    · exact hhead
    · exact htail value hmem

end RecordCondition
