import RecordCondition.Proofs.Build.Equations
import RecordCondition.Proofs.Expr.Induction
import RecordCondition.Proofs.Grammar.Survey

/-!
# Why a condition cannot be built

A builder stops at the first comparison that it cannot turn into a predicate, or
at a violation of the grammar where no such comparison stands before it.
-/

namespace RecordCondition

namespace Registry

variable {R : Type} (registry : Registry R)

def fault (survey : Survey) : Option BuildError :=
  (survey.comparisons.findSome? fun comparison =>
    failure? (registry.buildComparison comparison)).or
      (survey.violation.map .grammar)

theorem fault_followedBy (first second : Survey) :
    registry.fault (first.followedBy second) =
      (registry.fault first).or (registry.fault second) := by
  unfold fault Survey.followedBy
  cases hviolation : first.violation with
  | some e =>
      simp only [hviolation, Option.map_some]
      rw [Option.or_assoc, Option.some_or]
  | none =>
      simp only [Option.map_none, Option.or_none]
      rw [List.findSome?_append, Option.or_assoc]

theorem findSome?_fault (values : List Expr) :
    (values.findSome? fun value => registry.fault value.survey) =
      registry.fault (Expr.surveyAll values) := by
  induction values with
  | nil => rfl
  | cons value values ih =>
      rw [Expr.surveyAll, fault_followedBy, ← ih, List.findSome?_cons]
      cases registry.fault value.survey <;> rfl

theorem failure?_build (e : Expr) :
    failure? (registry.build e) = registry.fault e.survey := by
  induction e with
  | junction op values ih =>
      rw [build_junction, failure?_map, failure?_mapM, Expr.survey, ← findSome?_fault]
      exact findSome?_congr ih
  | compare left relations operands _ _ =>
      rw [build_compare, Expr.survey]
      cases Comparison.pairs left relations operands with
      | error e => rfl
      | ok pairs =>
          simp only [Survey.ofPairs, failure?_map, failure?_mapM]
          rw [fault, Option.map_none, Option.or_none]
  | _ => rfl

/-- No comparison is refused for its grammar, which the walk has checked. -/
theorem buildComparison_ne_grammar (comparison : Comparison) (e : GrammarError) :
    registry.buildComparison comparison ≠ .error (.grammar e) := by
  unfold buildComparison
  simp only
  cases registry.get? comparison.reorient.left.display with
  | none => simp
  | some field =>
      simp only
      cases field.filter comparison.reorient.comparator.lookup
        comparison.reorient.right.display <;> simp

end Registry

end RecordCondition
