import Mathlib.Control.Monad.Basic
import RecordCondition.Condition
import RecordCondition.Proofs.Expr.Induction

/-!
# Equality of expressions

No instance can be derived for a type whose members stand in lists below one another.
So the comparison of two expressions is written out, with that of two lists of them.
-/

namespace RecordCondition

namespace Expr

mutual

def same : Expr → Expr → Bool
  | .junction op values, .junction next others => op == next && sameAll values others
  | .compare left relations operands, .compare first links others =>
      left.same first && relations == links && sameAll operands others
  | .name id, .name next => id == next
  | .constant value, .constant next => value == next
  | .prefixed op operand, .prefixed next other => op == next && operand.same other
  | .binary op left right, .binary next first second =>
      op == next && left.same first && right.same second
  | .call function arguments, .call next others =>
      function.same next && sameAll arguments others
  | .attribute value field, .attribute other next => value.same other && field == next
  | .subscript value index, .subscript other next => value.same other && index.same next
  | .list elements, .list others => sameAll elements others
  | .tuple elements, .tuple others => sameAll elements others
  | _, _ => false

def sameAll : List Expr → List Expr → Bool
  | [], [] => true
  | value :: values, other :: others => value.same other && sameAll values others
  | _, _ => false

end

theorem sameAll_iff {values : List Expr}
    (hvalues : ∀ value ∈ values, ∀ other, value.same other = true ↔ value = other)
    (others : List Expr) : sameAll values others = true ↔ values = others := by
  induction values generalizing others with
  | nil => cases others <;> simp [sameAll]
  | cons value values ih =>
      rw [List.forall_mem_cons] at hvalues
      cases others with
      | nil => simp [sameAll]
      | cons other others => simp [sameAll, hvalues.1, ih hvalues.2]

theorem same_iff (e other : Expr) : e.same other = true ↔ e = other := by
  induction e generalizing other with
  | junction op values ih =>
      cases other <;> simp [same, sameAll_iff ih]
  | compare left relations operands hleft hoperands =>
      cases other <;> simp [same, hleft, sameAll_iff hoperands, and_assoc]
  | call function arguments hfunction harguments =>
      cases other <;> simp [same, hfunction, sameAll_iff harguments]
  | list elements ih | tuple elements ih =>
      cases other <;> simp [same, sameAll_iff ih]
  | name | constant => cases other <;> simp [same]
  | prefixed op operand ih => cases other <;> simp [same, ih]
  | binary op left right hleft hright =>
      cases other <;> simp [same, hleft, hright, and_assoc]
  | attributed value field ih => cases other <;> simp [same, ih]
  | subscript value index hvalue hindex => cases other <;> simp [same, hvalue, hindex]

instance : DecidableEq Expr :=
  fun e other => decidable_of_iff _ (same_iff e other)

end Expr

deriving instance DecidableEq for Condition

end RecordCondition
