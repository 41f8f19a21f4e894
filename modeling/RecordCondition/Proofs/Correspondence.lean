import RecordCondition.Proofs.Compilation
import RecordCondition.Proofs.Predicate.Alike

/-!
# Registries that correspond

Two registries, over records of any two kinds, correspond at a name when neither
has a field there or both have fields that check alike and filter alike.  Where
they correspond at every field that an expression mentions, a validation cannot
tell them apart, and building fails on both for the same reason or gives predicates
that answer alike.

The names that are looked up on the way are those of the pairs that a walk comes
upon, and a walk that is refused has only come upon some of the pairs.
-/

namespace RecordCondition

/-! ## What a walk comes upon -/

theorem Expr.mem_pairs_of_mem_survey {e : Expr} {comparison : Comparison}
    (hmem : comparison ∈ e.survey.comparisons) : comparison ∈ e.pairs := by
  induction e with
  | junction op values ih =>
      rw [Expr.survey] at hmem
      rw [Expr.pairs_junction]
      induction values with
      | nil => cases hmem
      | cons value values step =>
          rw [List.forall_mem_cons] at ih
          rw [List.flatMap_cons, List.mem_append]
          rw [Expr.surveyAll, Survey.followedBy] at hmem
          cases hviolation : value.survey.violation with
          | some violation =>
              simp only [hviolation] at hmem
              exact Or.inl (ih.1 hmem)
          | none =>
              simp only [hviolation, List.mem_append] at hmem
              exact hmem.imp ih.1 (step ih.2)
  | compare left relations operands _ _ =>
      rw [Expr.survey] at hmem
      cases hpairs : Comparison.pairs left relations operands with
      | error violation =>
          rw [hpairs] at hmem
          cases hmem
      | ok pairs =>
          rw [hpairs] at hmem
          rw [← Registry.pairs_of_chain hpairs]
          exact hmem
  | _ => cases hmem

variable {R S : Type} {corresponds : R → S → Prop}

/-! ## Fields and registries -/

structure Field.Alike (corresponds : R → S → Prop) (first : Field R) (second : Field S) :
    Prop where
  isIgnored : first.isIgnored = second.isIgnored
  operators : first.operators = second.operators
  clean : ∀ raw, first.clean raw = second.clean raw
  filter : ∀ lookup operand,
    Agrees (fun holds others => ∀ record other, corresponds record other →
      holds record = others other) (first.filter lookup operand) (second.filter lookup operand)

theorem Column.filter_agrees {type : ScalarType} {read : R → Cell type.Value}
    {readOther : S → Cell type.Value}
    (hread : ∀ record other, corresponds record other → read record = readOther other)
    (lookup : Lookup) (operand : String) :
    Agrees (fun holds others => ∀ record other, corresponds record other →
        holds record = others other)
      (Column.filter ⟨type, read⟩ lookup operand)
      (Column.filter ⟨type, readOther⟩ lookup operand) := by
  unfold Column.filter
  simp only
  cases type.test lookup operand with
  | error e => exact .error _
  | ok holds =>
      refine .ok fun record other hrecord => ?_
      rw [hread record other hrecord]

theorem TypedField.violation_eq {type : ScalarType} (read : R → Cell type.Value)
    (readOther : S → Cell type.Value) (operators : ComparatorSet)
    (min max : Option type.Value) (pattern : Option Pattern) (raw : String)
    (value : type.Value) :
    TypedField.violation ⟨⟨type, read⟩, operators, min, max, pattern⟩ raw value =
      TypedField.violation ⟨⟨type, readOther⟩, operators, min, max, pattern⟩ raw value := by
  cases min <;> cases max <;> cases pattern <;> rfl

/-- What a field accepts has nothing to do with how it is read from a record. -/
theorem TypedField.clean_eq {type : ScalarType} (read : R → Cell type.Value)
    (readOther : S → Cell type.Value) (operators : ComparatorSet)
    (min max : Option type.Value) (pattern : Option Pattern) (raw : String) :
    TypedField.clean ⟨⟨type, read⟩, operators, min, max, pattern⟩ raw =
      TypedField.clean ⟨⟨type, readOther⟩, operators, min, max, pattern⟩ raw := by
  unfold TypedField.clean TypedField.type
  cases type.read raw with
  | error e => rfl
  | ok value => simp only [TypedField.violation_eq read readOther]

/-- Fields that differ only in how they are read are alike where they read the same. -/
theorem Field.alike_typed {type : ScalarType} {read : R → Cell type.Value}
    {readOther : S → Cell type.Value}
    (hread : ∀ record other, corresponds record other → read record = readOther other)
    (operators : ComparatorSet) (min max : Option type.Value) (pattern : Option Pattern) :
    Field.Alike corresponds (.typed ⟨⟨type, read⟩, operators, min, max, pattern⟩)
      (.typed ⟨⟨type, readOther⟩, operators, min, max, pattern⟩) where
  isIgnored := rfl
  operators := rfl
  clean raw := by
    rw [Field.clean, Field.clean, TypedField.clean_eq read readOther]
  filter lookup operand := Column.filter_agrees hread lookup operand

theorem Field.alike_over {field : Field R} {other : Field S}
    (halike : field.Alike corresponds other) :
    Field.Alike corresponds (.over field) (.over other) where
  isIgnored := rfl
  operators := rfl
  clean _ := rfl
  filter := halike.filter

theorem Field.alike_bare : Field.Alike corresponds .bare .bare where
  isIgnored := rfl
  operators := rfl
  clean _ := rfl
  filter _ _ := .error _

namespace Registry

/-- Neither registry has a field of the name, or both have one and these are alike. -/
def CorrespondAt (corresponds : R → S → Prop) (first : Registry R) (second : Registry S)
    (name : String) : Prop :=
  Option.Rel (Field.Alike corresponds) (first.get? name) (second.get? name)

variable {first : Registry R} {second : Registry S}

theorem buildComparison_agrees {comparison : Comparison}
    (hfield : CorrespondAt corresponds first second comparison.field) :
    Agrees (Predicate.Alike corresponds) (first.buildComparison comparison)
      (second.buildComparison comparison) := by
  have hname : comparison.reorient.left.display = comparison.field := by
    rw [Comparison.reorient_left, Comparison.field]
  unfold CorrespondAt at hfield
  unfold buildComparison
  simp only [hname]
  generalize comparison.reorient = oriented
  generalize first.get? comparison.field = found, second.get? comparison.field = other
    at hfield
  cases hfield with
  | none => exact .error _
  | @some field next halike =>
      have hfilter := halike.filter oriented.comparator.lookup oriented.right.display
      simp only
      generalize field.filter oriented.comparator.lookup oriented.right.display = result,
        next.filter oriented.comparator.lookup oriented.right.display = answer at hfilter
      cases hfilter with
      | error e => exact .error _
      | ok hholds =>
          have hleaf : Predicate.Alike corresponds
              (.leaf ⟨comparison.field, oriented.comparator.lookup, oriented.right.display, _⟩)
              (.leaf ⟨comparison.field, oriented.comparator.lookup, oriented.right.display, _⟩) :=
            .leaf ⟨rfl, rfl, rfl, hholds⟩
          cases oriented.comparator.negated with
          | false => exact .ok hleaf
          | true => exact .ok (.not hleaf)

theorem build_agrees {e : Expr}
    (hfields : ∀ pair ∈ e.pairs, CorrespondAt corresponds first second pair.field) :
    Agrees (Predicate.Alike corresponds) (first.build e) (second.build e) := by
  induction e with
  | junction op values ih =>
      rw [Expr.pairs_junction, List.forall_mem_flatMap] at hfields
      rw [build_junction, build_junction]
      apply (agrees_mapM fun value hmem => ih value hmem (hfields value hmem)).map
      exact fun _ _ halike => Predicate.Alike.joinAll halike op
  | compare left relations operands _ _ =>
      rw [build_compare, build_compare]
      cases hpairs : Comparison.pairs left relations operands with
      | error violation => exact .error _
      | ok pairs =>
          rw [← pairs_of_chain hpairs] at hfields
          apply (agrees_mapM fun pair hmem => buildComparison_agrees (hfields pair hmem)).map
          exact fun _ _ halike => Predicate.Alike.joinAll halike .and
  | _ => exact .error _

/-! ## Validation -/

theorem objection_eq {name : String} (hfield : CorrespondAt corresponds first second name)
    (demands : List Demand) : first.objection name demands = second.objection name demands := by
  unfold CorrespondAt at hfield
  unfold objection
  generalize first.get? name = found, second.get? name = other at hfield
  cases hfield with
  | none => rfl
  | @some field next halike =>
      have hobjection : field.objection name = next.objection name := by
        funext demand
        rw [Field.objection, Field.objection, halike.clean, halike.operators]
      simp only [halike.isIgnored, hobjection]

theorem validate_eq_of_correspond {e : Expr}
    (hfields : ∀ pair ∈ e.pairs, CorrespondAt corresponds first second pair.field) :
    first.validate e = second.validate e := by
  apply eq_of_failure?_eq
  rw [failure?_validate, failure?_validate]
  congr 1
  apply findSome?_congr
  intro name hname
  obtain ⟨comparison, hmem, rfl⟩ := List.mem_map.mp (List.mem_eraseDups.mp hname)
  exact objection_eq (hfields comparison (Expr.mem_pairs_of_mem_survey hmem)) _

/-! ## From text -/

theorem compileText_agrees
    (hfields : ∀ name, CorrespondAt corresponds first second name) (limits : Limits)
    (text : String) :
    Agrees (Predicate.Alike corresponds) (first.compileText limits text)
      (second.compileText limits text) := by
  unfold compileText
  cases Condition.parse limits text with
  | error e => exact .error e
  | ok condition =>
      have hvalidate : first.validate condition.expr = second.validate condition.expr :=
        validate_eq_of_correspond fun pair _ => hfields pair.field
      have hbuild : Agrees (Predicate.Alike corresponds) (first.build condition.expr)
          (second.build condition.expr) := build_agrees fun pair _ => hfields pair.field
      simp only [bind, Except.bind, Condition.compile, Condition.validate, Condition.build]
      rw [hvalidate]
      cases second.validate condition.expr with
      | error e => exact .error e
      | ok _ => exact hbuild.mapError ConditionError.unbuilt

end Registry

end RecordCondition
