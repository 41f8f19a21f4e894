import RecordCondition.Proofs.Build.Equations
import RecordCondition.Proofs.Grammar.Faults
import RecordCondition.Proofs.Predicate.Tests

/-!
# One test for each pair

The tests of a predicate that is built from a condition are, one for one and in the
same order, those of the neighbouring pairs that the condition compares.  Each
asks the field that its pair is about, in the order in which the field comes first.
-/

namespace RecordCondition

variable {R : Type}

namespace Registry

/-- What a leaf, negated or not, has to be for the pair that it was built from. -/
structure CarriesOut (registry : Registry R) (comparison : Comparison)
    (test : Leaf R × Bool) : Prop where
  field : test.1.field = comparison.reorient.left.display
  value : test.1.value = comparison.reorient.right.display
  lookup : test.1.lookup = comparison.reorient.comparator.lookup
  negated : test.2 = comparison.reorient.comparator.negated
  holds : ∃ field, registry.get? test.1.field = some field ∧
    field.filter test.1.lookup test.1.value = .ok test.1.holds

variable {registry : Registry R}

theorem tests_of_buildComparison {comparison : Comparison} {predicate : Predicate R}
    (hbuild : registry.buildComparison comparison = .ok predicate) :
    predicate.Solid ∧
      ∃ test, predicate.tests = [test] ∧ registry.CarriesOut comparison test := by
  unfold buildComparison at hbuild
  simp only at hbuild
  cases hget : registry.get? comparison.reorient.left.display with
  | none => simp only [hget, reduceCtorEq] at hbuild
  | some field =>
      cases hfilter : field.filter comparison.reorient.comparator.lookup
          comparison.reorient.right.display with
      | error reason => simp only [hget, hfilter, reduceCtorEq] at hbuild
      | ok holds =>
          simp only [hget, hfilter, Except.ok.injEq] at hbuild
          subst hbuild
          refine ⟨?_, (⟨_, _, _, holds⟩, comparison.reorient.comparator.negated), ?_,
            rfl, rfl, rfl, rfl, field, hget, hfilter⟩
          · cases comparison.reorient.comparator.negated with
            | true => exact .not _
            | false => exact .leaf _
          · cases comparison.reorient.comparator.negated <;> rfl

theorem tests_of_pairs {pairs : List Comparison} {predicates : List (Predicate R)}
    (hbuild : List.Forall₂
      (fun pair part => registry.buildComparison pair = .ok part) pairs predicates) :
    (∀ predicate ∈ predicates, predicate.Solid) ∧
      List.Forall₂ registry.CarriesOut pairs (Predicate.testsOf predicates) := by
  induction hbuild with
  | nil => exact ⟨by simp, .nil⟩
  | cons hpair _ ih =>
      obtain ⟨hsolid, test, htests, hcarries⟩ := tests_of_buildComparison hpair
      rw [List.forall_mem_cons, Predicate.testsOf, htests]
      exact ⟨⟨hsolid, ih.1⟩, .cons hcarries ih.2⟩

theorem pairs_of_chain {left : Expr} {relations : List Relation} {operands : List Expr}
    {pairs : List Comparison}
    (hpairs : Comparison.pairs left relations operands = .ok pairs) :
    pairs = (Expr.compare left relations operands).pairs := by
  rw [Comparison.pairs_eq] at hpairs
  rw [Expr.pairs_compare]
  cases hfault : (Expr.compare left relations operands).fault with
  | some error => simp [hfault] at hpairs
  | none =>
      rw [hfault] at hpairs
      exact (Except.ok.inj hpairs).symm

/-- Every pair of a condition is tested once and in its place. -/
theorem tests_of_build {e : Expr} {predicate : Predicate R}
    (hbuild : registry.build e = .ok predicate) :
    List.Forall₂ registry.CarriesOut e.pairs predicate.tests := by
  induction e generalizing predicate with
  | junction op values ih =>
      obtain ⟨predicates, hvalues, rfl⟩ := registry.build_junction_eq_ok_iff.mp hbuild
      rw [Expr.pairs_junction, Predicate.tests_joinAll]
      clear hbuild
      induction hvalues with
      | nil => exact .nil
      | cons hvalue _ ihvalues =>
          rw [List.forall_mem_cons] at ih
          rw [List.flatMap_cons, Predicate.testsOf]
          exact List.rel_append (ih.1 hvalue) (ihvalues ih.2)
  | compare left relations operands _ _ =>
      obtain ⟨pairs, predicates, hpairs, hall, rfl⟩ :=
        registry.build_compare_eq_ok_iff.mp hbuild
      rw [← pairs_of_chain hpairs, Predicate.tests_joinAll]
      exact (tests_of_pairs hall).2
  | _ => cases hbuild

theorem exists_pair_of_mem_tests {e : Expr} {predicate : Predicate R}
    (hbuild : registry.build e = .ok predicate) {test : Leaf R × Bool}
    (hmem : test ∈ predicate.tests) : ∃ pair ∈ e.pairs, registry.CarriesOut pair test := by
  have hall := tests_of_build hbuild
  obtain ⟨index, hindex, rfl⟩ := List.getElem_of_mem hmem
  have hbound : index < e.pairs.length := hall.length_eq ▸ hindex
  exact ⟨e.pairs[index], List.getElem_mem hbound, hall.get hbound hindex⟩

theorem exists_test_of_mem_pairs {e : Expr} {predicate : Predicate R}
    (hbuild : registry.build e = .ok predicate) {pair : Comparison} (hmem : pair ∈ e.pairs) :
    ∃ test ∈ predicate.tests, registry.CarriesOut pair test := by
  have hall := tests_of_build hbuild
  obtain ⟨index, hindex, rfl⟩ := List.getElem_of_mem hmem
  have hbound : index < predicate.tests.length := hall.length_eq ▸ hindex
  exact ⟨predicate.tests[index], List.getElem_mem hbound, hall.get hindex hbound⟩

theorem map_eq_map_of_carriesOut {pairs : List Comparison} {tests : List (Leaf R × Bool)}
    (hcarries : List.Forall₂ registry.CarriesOut pairs tests) :
    (tests.map fun test => (test.1.field, test.1.lookup, test.1.value)) =
      pairs.map fun pair =>
        (pair.reorient.left.display, pair.reorient.comparator.lookup,
          pair.reorient.right.display) := by
  induction hcarries with
  | nil => rfl
  | cons hpair _ ih =>
      rw [List.map_cons, List.map_cons, ih, hpair.field, hpair.lookup, hpair.value]

/-- A predicate that is built from a condition is solid, unless the condition makes
no comparison and the predicate is empty. -/
theorem solid_of_build {e : Expr} {predicate : Predicate R}
    (hbuild : registry.build e = .ok predicate) (hsome : predicate.isEmpty = false) :
    predicate.Solid := by
  induction e generalizing predicate with
  | junction op values ih =>
      obtain ⟨predicates, hvalues, rfl⟩ := registry.build_junction_eq_ok_iff.mp hbuild
      refine Predicate.solid_joinAll op ?_ hsome
      clear hbuild hsome
      induction hvalues with
      | nil => simp
      | cons hvalue _ ihvalues =>
          rw [List.forall_mem_cons] at ih ⊢
          exact ⟨ih.1 hvalue, ihvalues ih.2⟩
  | compare left relations operands _ _ =>
      obtain ⟨pairs, predicates, -, hall, rfl⟩ :=
        registry.build_compare_eq_ok_iff.mp hbuild
      exact Predicate.solid_joinAll .and
        (fun part hmem _ => (tests_of_pairs hall).1 part hmem) hsome
  | _ => cases hbuild

end Registry

end RecordCondition
