import RecordCondition.Proofs.Expr.Induction
import RecordCondition.Proofs.Grammar.Faults
import RecordCondition.Proofs.Grammar.Walk
import RecordCondition.Proofs.Spelling.WellFormed

/-!
# Comparisons that line up

The comparisons of a well-formed expression have as many relations as operands, and
one at least.  So a walk through it never comes upon one whose relations and operands
do not line up, and what a visitor would make of it makes no difference.
-/

namespace RecordCondition

def GrammarError.IsMisaligned : GrammarError → Prop
  | .misaligned .. => True
  | _ => False

theorem Expr.aligned_operandFault {e : Expr} {error : GrammarError}
    (hfault : e.operandFault = some error) : ¬ error.IsMisaligned := by
  cases e <;> simp only [Expr.operandFault, Option.some.injEq, reduceCtorEq] at hfault <;>
    subst hfault <;> exact id

theorem Relation.aligned_fault {relation : Relation} {error : GrammarError}
    (hfault : relation.fault = some error) : ¬ error.IsMisaligned := by
  cases relation <;> simp only [Relation.fault, Option.some.injEq, reduceCtorEq] at hfault <;>
    subst hfault <;> exact id

theorem Expr.aligned_fault_compare {left : Expr} {relations : List Relation}
    {operands : List Expr} {error : GrammarError} (hsome : relations ≠ [])
    (hlength : relations.length = operands.length)
    (hfault : (Expr.compare left relations operands).fault = some error) :
    ¬ error.IsMisaligned := by
  have haligned : ¬ (relations = [] ∨ relations.length ≠ operands.length) := by
    rw [not_or, Decidable.not_not]
    exact ⟨hsome, hlength⟩
  rw [Expr.fault, if_neg haligned] at hfault
  obtain ⟨fault, hmem, rfl⟩ := List.exists_of_findSome?_eq_some hfault
  rcases List.mem_cons.mp hmem with hleft | hmem
  · exact Expr.aligned_operandFault hleft.symm
  · obtain ⟨⟨relation, operand⟩, -, hmem⟩ := List.mem_flatMap.mp hmem
    rcases List.mem_cons.mp hmem with hrelation | hmem
    · exact Relation.aligned_fault hrelation.symm
    · exact Expr.aligned_operandFault (List.mem_singleton.mp hmem).symm

namespace Visitor

variable {σ ε α : Type} {visitor other : Visitor σ ε α}

/-- The visitors differ at most in what they make of a comparison whose relations and
operands do not line up. -/
structure AgreeOnAligned (visitor other : Visitor σ ε α) : Prop where
  enter : visitor.enter = other.enter
  junction : visitor.junction = other.junction
  comparison : visitor.comparison = other.comparison
  refuse : ∀ error : GrammarError, ¬ error.IsMisaligned →
    visitor.refuse error = other.refuse error

theorem conditions_eq_of_forall {values : List Expr}
    (hvalues : ∀ value ∈ values, visitor.condition value = other.condition value) :
    visitor.conditions values = other.conditions values := by
  induction values with
  | nil => rfl
  | cons value values ih =>
      rw [List.forall_mem_cons] at hvalues
      rw [conditions, conditions, hvalues.1, ih hvalues.2]

theorem condition_eq_of_agreeOnAligned (hagree : visitor.AgreeOnAligned other) {e : Expr}
    (hwellFormed : e.WellFormed) : visitor.condition e = other.condition e := by
  induction e with
  | junction op values ih =>
      cases hwellFormed with
      | junction _ hvalues =>
          have heq := conditions_eq_of_forall fun value hmem => ih value hmem (hvalues value hmem)
          rw [condition, condition, heq, hagree.junction]
  | compare left relations operands _ _ =>
      cases hwellFormed with
      | compare hsome hlength _ _ =>
          rw [condition, condition, Comparison.pairs_eq]
          cases hfault : (Expr.compare left relations operands).fault with
          | none => simp only [hagree.comparison]
          | some error =>
              have haligned := Expr.aligned_fault_compare hsome hlength hfault
              simp only [hagree.refuse error haligned]
  | _ => exact congrArg throw (hagree.refuse _ id)

theorem walk_eq_of_agreeOnAligned (hagree : visitor.AgreeOnAligned other) {e : Expr}
    (hwellFormed : e.WellFormed) (state : σ) :
    visitor.walk e state = other.walk e state := by
  rw [walk, walk, condition_eq_of_agreeOnAligned hagree hwellFormed, hagree.enter]

end Visitor

end RecordCondition
