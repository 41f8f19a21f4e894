import RecordCondition.Proofs.Field.Filter
import RecordCondition.Proofs.Validation.Objection

/-!
# Validating and building agree

The two passes orient a comparison differently, yet they name the same field and
the same value.  A value that a checked field accepts can be read, which is all
that a lookup needs of it; a field that is not checked accepts everything, so a
lookup on it may still fail.
-/

namespace RecordCondition

variable {R : Type}

theorem ConditionError.message_ungrammatical (violation : GrammarError) :
    (ConditionError.ungrammatical violation).message =
      "Invalid syntax: " ++ violation.message := by
  change toString "Invalid syntax: " ++ toString violation.message = _
  simp only [toString]

theorem Column.filter_eq_ok_of_read (column : Column R) (lookup : Lookup)
    {operand : String} {value : column.type.Value}
    (hread : column.type.read operand = .ok value) :
    ∃ holds, column.filter lookup operand = .ok holds := by
  by_cases hcontains : lookup = .contains
  · subst hcontains
    exact ⟨_, Column.filter_contains column operand⟩
  · rw [Column.filter_of_ne_contains column hcontains, hread]
    exact ⟨_, rfl⟩

theorem Field.filter_eq_ok_of_clean {field : Field R} {operand cleaned : String}
    (hchecked : field.isIgnored = false)
    (hclean : field.clean operand = .ok cleaned) (lookup : Lookup) :
    ∃ holds, field.filter lookup operand = .ok holds := by
  cases field with
  | bare => exact absurd hchecked (by simp [Field.isIgnored])
  | «over» field => exact absurd hchecked (by simp [Field.isIgnored])
  | typed field =>
      have hread : ∃ value, field.column.type.read operand = .ok value := by
        cases hread : field.column.type.read operand with
        | ok value => exact ⟨value, rfl⟩
        | error e =>
            simp [Field.clean, TypedField.clean, TypedField.type, hread,
              Except.mapError] at hclean
      obtain ⟨value, hvalue⟩ := hread
      exact Column.filter_eq_ok_of_read field.column lookup hvalue

namespace Registry

variable (registry : Registry R)

theorem get?_of_buildComparison_eq_ok {comparison : Comparison}
    {predicate : Predicate R}
    (hbuild : registry.buildComparison comparison = .ok predicate) :
    ∃ field, registry.get? comparison.field = some field := by
  cases hget : registry.get? comparison.field with
  | some field => exact ⟨field, rfl⟩
  | none =>
      have hleft : comparison.reorient.left.display = comparison.field := by
        rw [Comparison.reorient_left, Comparison.field]
      simp only [buildComparison, hleft, hget, reduceCtorEq] at hbuild

/-- Where a permitted comparison is not built, its field is not checked. -/
theorem buildComparison_eq_error_of_permits {comparison : Comparison} {e : BuildError}
    (hpermits : registry.Permits comparison)
    (hbuild : registry.buildComparison comparison = .error e) :
    ∃ field reason,
      e = .unusable comparison.field comparison.value reason ∧
        registry.get? comparison.field = some field ∧ field.isIgnored = true := by
  obtain ⟨field, hget, hmet⟩ := hpermits
  have hleft : comparison.reorient.left.display = comparison.field := by
    rw [Comparison.reorient_left, Comparison.field]
  have hright : comparison.reorient.right.display = comparison.value := by
    rw [Comparison.reorient_right, Comparison.value]
  simp only [buildComparison, hleft, hright, hget] at hbuild
  cases hfilter : field.filter comparison.reorient.comparator.lookup comparison.value with
  | ok holds => simp [hfilter] at hbuild
  | error reason =>
      simp only [hfilter, Except.error.injEq] at hbuild
      refine ⟨field, reason, hbuild.symm, hget, ?_⟩
      by_contra hchecked
      rw [Bool.not_eq_true] at hchecked
      have hunobjected := hmet.resolve_left (by rw [hchecked]; exact Bool.false_ne_true)
      cases hclean : field.clean comparison.value with
      | error refusal =>
          simp [Field.objection, Comparison.demand, hclean] at hunobjected
      | ok cleaned =>
          obtain ⟨holds, hholds⟩ := Field.filter_eq_ok_of_clean hchecked hclean
            comparison.reorient.comparator.lookup
          rw [hfilter] at hholds
          exact absurd hholds (by simp)

theorem build_of_validate {e : Expr} (hvalid : registry.validate e = .ok ()) :
    (∃ predicate, registry.build e = .ok predicate) ∨
      ∃ name value reason field,
        registry.build e = .error (.unusable name value reason) ∧
          registry.get? name = some field ∧ field.isIgnored = true := by
  obtain ⟨hgrammar, hpermits⟩ := (registry.validate_eq_ok_iff e).mp hvalid
  cases hbuild : registry.build e with
  | ok predicate => exact Or.inl ⟨predicate, rfl⟩
  | error reason =>
      right
      have hfault : registry.fault e.survey = some reason := by
        rw [← failure?_build, hbuild]
        rfl
      rw [fault, hgrammar, Option.map_none, Option.or_none] at hfault
      obtain ⟨comparison, hmem, hcomparison⟩ := List.exists_of_findSome?_eq_some hfault
      rw [failure?_eq_some_iff] at hcomparison
      obtain ⟨field, cause, rfl, hget, hignored⟩ :=
        registry.buildComparison_eq_error_of_permits (hpermits comparison hmem) hcomparison
      exact ⟨comparison.field, comparison.value, cause, field, rfl, hget, hignored⟩

theorem survey_of_build {e : Expr} {predicate : Predicate R}
    (hbuild : registry.build e = .ok predicate) :
    e.survey.violation = none ∧
      ∀ comparison ∈ e.survey.comparisons,
        ∃ field, registry.get? comparison.field = some field := by
  have hfault : registry.fault e.survey = none := by
    rw [← failure?_build, hbuild]
    rfl
  rw [fault, Option.or_eq_none_iff, Option.map_eq_none_iff,
    List.findSome?_eq_none_iff] at hfault
  refine ⟨hfault.2, ?_⟩
  intro comparison hmem
  obtain ⟨leaf, hleaf⟩ := failure?_eq_none_iff.mp (hfault.1 comparison hmem)
  exact registry.get?_of_buildComparison_eq_ok hleaf

theorem validate_of_build {e : Expr} {predicate : Predicate R}
    (hbuild : registry.build e = .ok predicate) :
    registry.validate e = .ok () ∨
      (∃ name value reason,
        registry.validate e = .error (.invalidValue name value reason)) ∨
      ∃ name value, registry.validate e = .error (.invalidOperator name value) := by
  obtain ⟨hgrammar, hregistered⟩ := registry.survey_of_build hbuild
  cases hvalidate : registry.validate e with
  | ok _ => exact Or.inl rfl
  | error reason =>
      right
      have hobjection := registry.failure?_validate e
      rw [hvalidate, hgrammar, Option.map_none, Option.none_or] at hobjection
      obtain ⟨name, hname, hraised⟩ :=
        List.exists_of_findSome?_eq_some hobjection.symm
      obtain ⟨comparison, hmem, rfl⟩ := List.mem_map.mp (List.mem_eraseDups.mp hname)
      obtain ⟨field, hget⟩ := hregistered comparison hmem
      rcases registry.objection_eq_some hget hraised with
        ⟨value, cause, rfl⟩ | ⟨value, rfl⟩
      · exact Or.inl ⟨comparison.field, value, cause, rfl⟩
      · exact Or.inr ⟨comparison.field, value, rfl⟩

theorem validate_of_build_grammar {e : Expr} {violation : GrammarError}
    (hbuild : registry.build e = .error (.grammar violation)) :
    registry.validate e = .error (.ungrammatical violation) := by
  have hfault : registry.fault e.survey = some (.grammar violation) := by
    rw [← failure?_build, hbuild]
    rfl
  rw [fault, Option.or_eq_some_iff] at hfault
  rcases hfault with hfound | ⟨-, hgrammar⟩
  · obtain ⟨comparison, -, hcomparison⟩ := List.exists_of_findSome?_eq_some hfound
    rw [failure?_eq_some_iff] at hcomparison
    exact absurd hcomparison (registry.buildComparison_ne_grammar comparison violation)
  · rw [Option.map_eq_some_iff] at hgrammar
    obtain ⟨found, hsurvey, heq⟩ := hgrammar
    obtain rfl := BuildError.grammar.inj heq
    rw [validate_eq, hsurvey]

/-- What either pass answers to an expression bounds what the other answers. -/
theorem validate_agrees_with_build (e : Expr) :
    (registry.validate e = .ok () →
      (∃ predicate, registry.build e = .ok predicate) ∨
        ∃ name value reason field,
          registry.build e = .error (.unusable name value reason) ∧
            registry.get? name = some field ∧ field.isIgnored = true) ∧
    (∀ predicate, registry.build e = .ok predicate →
      registry.validate e = .ok () ∨
        (∃ name value reason,
          registry.validate e = .error (.invalidValue name value reason)) ∨
        ∃ name value, registry.validate e = .error (.invalidOperator name value)) ∧
    ∀ violation, registry.build e = .error (.grammar violation) →
      registry.validate e = .error (.ungrammatical violation) ∧
        (ConditionError.ungrammatical violation).message =
          "Invalid syntax: " ++ violation.message := by
  refine ⟨?_, ?_, ?_⟩
  · intro hvalid
    exact registry.build_of_validate hvalid
  · intro predicate hbuild
    exact registry.validate_of_build hbuild
  · intro violation hbuild
    exact ⟨registry.validate_of_build_grammar hbuild,
      ConditionError.message_ungrammatical violation⟩

end Registry

end RecordCondition
