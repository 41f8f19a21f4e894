import RecordCondition.Build
import RecordCondition.Proofs.Grammar.Walk
import RecordCondition.Proofs.Results

/-!
# Building by equations

A builder keeps no state, so building is a function of the expression alone: a
comparison is the conjunction of its links, a junction joins what its values are
built to, and everything else is refused.
-/

namespace RecordCondition

namespace Registry

variable {R : Type} (registry : Registry R)

theorem run_conditions_builder (values : List Expr) :
    (registry.builder.conditions values).run () =
      (values.mapM registry.build, ()) := by
  induction values with
  | nil => rfl
  | cons value values ih =>
      have hvalue : (registry.builder.condition value).run () =
          (registry.build value, ()) := rfl
      rw [Visitor.run_conditions_cons, hvalue, List.mapM_cons]
      cases registry.build value with
      | error e => rfl
      | ok predicate =>
          simp only [ih]
          cases values.mapM registry.build <;> rfl

theorem build_junction (op : Junction) (values : List Expr) :
    registry.build (.junction op values) =
      (values.mapM registry.build).map (Predicate.joinAll op) := by
  have hrun := registry.builder.run_junction op values ()
  rw [run_conditions_builder] at hrun
  change ((registry.builder.condition (.junction op values)).run ()).1 = _
  rw [hrun]
  cases values.mapM registry.build <;> rfl

theorem buildPairs_eq (comparisons : List Comparison) (start : Predicate R) :
    registry.buildPairs start comparisons =
      (comparisons.mapM registry.buildComparison).map
        (fun predicates => predicates.foldl .both start) := by
  induction comparisons generalizing start with
  | nil => rfl
  | cons comparison comparisons ih =>
      rw [buildPairs, List.mapM_cons]
      cases registry.buildComparison comparison with
      | error e => rfl
      | ok next =>
          simp only [ih]
          cases comparisons.mapM registry.buildComparison <;> rfl

theorem build_compare (left : Expr) (relations : List Relation) (operands : List Expr) :
    registry.build (.compare left relations operands) =
      match Comparison.pairs left relations operands with
      | .ok pairs =>
          (pairs.mapM registry.buildComparison).map (Predicate.joinAll .and)
      | .error e => .error (.grammar e) := by
  have hrun := registry.builder.run_compare left relations operands ()
  change ((registry.builder.condition (.compare left relations operands)).run ()).1 = _
  rw [hrun]
  cases Comparison.pairs left relations operands with
  | error e => rfl
  | ok pairs =>
      have hpairs := registry.buildPairs_eq pairs .empty
      have hjoin : (fun predicates : List (Predicate R) =>
          predicates.foldl .both .empty) = Predicate.joinAll .and := rfl
      rw [hjoin] at hpairs
      simp only
      rw [← hpairs]
      dsimp only [builder]
      cases registry.buildPairs .empty pairs <;> rfl

theorem build_junction_eq_ok_iff {op : Junction} {values : List Expr}
    {predicate : Predicate R} :
    registry.build (.junction op values) = .ok predicate ↔
      ∃ predicates,
        List.Forall₂ (fun value part => registry.build value = .ok part)
          values predicates ∧
        predicate = .joinAll op predicates := by
  rw [build_junction]
  constructor
  · intro hbuild
    cases hvalues : values.mapM registry.build with
    | error e =>
        rw [hvalues] at hbuild
        cases hbuild
    | ok predicates =>
        rw [hvalues] at hbuild
        exact ⟨predicates, mapM_eq_ok_iff.mp hvalues, (Except.ok.inj hbuild).symm⟩
  · rintro ⟨predicates, hvalues, rfl⟩
    rw [mapM_eq_ok_iff.mpr hvalues]
    rfl

theorem build_compare_eq_ok_iff {left : Expr} {relations : List Relation}
    {operands : List Expr} {predicate : Predicate R} :
    registry.build (.compare left relations operands) = .ok predicate ↔
      ∃ pairs predicates,
        Comparison.pairs left relations operands = .ok pairs ∧
        List.Forall₂ (fun pair part => registry.buildComparison pair = .ok part)
          pairs predicates ∧
        predicate = .joinAll .and predicates := by
  rw [build_compare]
  cases Comparison.pairs left relations operands with
  | error e => simp
  | ok pairs =>
      constructor
      · intro hbuild
        cases hpairs : pairs.mapM registry.buildComparison with
        | error e =>
            simp only [hpairs] at hbuild
            cases hbuild
        | ok predicates =>
            simp only [hpairs] at hbuild
            exact ⟨pairs, predicates, rfl, mapM_eq_ok_iff.mp hpairs,
              (Except.ok.inj hbuild).symm⟩
      · rintro ⟨others, predicates, heq, hall, rfl⟩
        obtain rfl : pairs = others := Except.ok.inj heq
        simp only
        rw [mapM_eq_ok_iff.mpr hall]
        rfl

end Registry

end RecordCondition
