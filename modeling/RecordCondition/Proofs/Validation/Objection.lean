import RecordCondition.Proofs.Build.Fault
import RecordCondition.Proofs.Validation.Demands

/-!
# What is objected to in a condition

A validation reports the first objection that there is when the fields are taken
in the order of first mention and the demands of a field in their own order.  A
field that is not checked is not objected to.
-/

namespace RecordCondition

variable {R : Type}

/-- What a field has against a demand; the value comes before the comparator. -/
def Field.objection (field : Field R) (name : String) (demand : Demand) :
    Option ConditionError :=
  match field.clean demand.value with
  | .error e => some (.invalidValue name demand.value e)
  | .ok _ =>
      if field.operators.contains demand.comparator then none
      else some (.invalidOperator name demand.value)

theorem Field.failure?_checkDemands (field : Field R) (name : String)
    (demands : List Demand) :
    failure? (field.checkDemands name demands) =
      demands.findSome? (field.objection name) := by
  induction demands with
  | nil => rfl
  | cons demand demands ih =>
      rw [Field.checkDemands, List.findSome?_cons, Field.objection]
      cases field.clean demand.value with
      | error e => rfl
      | ok value =>
          simp only
          by_cases hpermitted : field.operators.contains demand.comparator = true
          · rw [if_pos hpermitted, if_pos hpermitted]
            exact ih
          · rw [if_neg hpermitted, if_neg hpermitted]
            rfl

namespace Registry

variable (registry : Registry R)

def objection (name : String) (demands : List Demand) : Option ConditionError :=
  match registry.get? name with
  | none => some (.unknownField name)
  | some field =>
      if field.isIgnored then none else demands.findSome? (field.objection name)

theorem failure?_checkDemands (demands : Demands) :
    failure? (registry.checkDemands demands) =
      demands.findSome? fun entry => registry.objection entry.1 entry.2 := by
  induction demands with
  | nil => rfl
  | cons entry others ih =>
      obtain ⟨name, demands⟩ := entry
      rw [checkDemands, List.findSome?_cons, objection]
      cases registry.get? name with
      | none => rfl
      | some field =>
          simp only
          by_cases hignored : field.isIgnored = true
          · rw [if_pos hignored, if_pos hignored]
            exact ih
          · rw [if_neg hignored, if_neg hignored, ← Field.failure?_checkDemands]
            cases field.checkDemands name demands with
            | error e => rfl
            | ok _ => exact ih

theorem failure?_validate (e : Expr) :
    failure? (registry.validate e) =
      (e.survey.violation.map .ungrammatical).or
        ((e.survey.comparisons.map Comparison.field).eraseDups.findSome? fun name =>
          registry.objection name (Demands.ofField e.survey.comparisons name)) := by
  rw [validate_eq]
  cases e.survey.violation with
  | some violation => rfl
  | none =>
      simp only [Option.map_none, Option.none_or]
      rw [failure?_checkDemands, Demands.recordAll_nil, List.findSome?_map]
      rfl

/-- The field of a comparison exists and has nothing against what is demanded. -/
def Permits (comparison : Comparison) : Prop :=
  ∃ field, registry.get? comparison.field = some field ∧
    (field.isIgnored = true ∨
      field.objection comparison.field comparison.demand = none)

theorem objection_ofField_eq_none_iff (comparisons : List Comparison) (name : String)
    (hmentioned : name ∈ comparisons.map Comparison.field) :
    registry.objection name (Demands.ofField comparisons name) = none ↔
      ∀ comparison ∈ comparisons, comparison.field = name →
        registry.Permits comparison := by
  obtain ⟨mentioning, hmentioning, hname⟩ := List.mem_map.mp hmentioned
  have hdemands : ∀ demand, demand ∈ Demands.ofField comparisons name ↔
      ∃ comparison ∈ comparisons, comparison.field = name ∧
        comparison.demand = demand := by
    intro demand
    simp only [Demands.ofField, List.mem_map, List.mem_filter, decide_eq_true_iff,
      and_assoc]
  unfold objection Permits
  cases hget : registry.get? name with
  | none =>
      simp only [reduceCtorEq, false_iff]
      intro hpermits
      obtain ⟨field, hfield, -⟩ := hpermits mentioning hmentioning hname
      rw [hname, hget] at hfield
      exact absurd hfield (by simp)
  | some field =>
      simp only
      by_cases hignored : field.isIgnored = true
      · rw [if_pos hignored]
        simp only [true_iff]
        rintro comparison - hcomparison
        exact ⟨field, hcomparison ▸ hget, Or.inl hignored⟩
      · rw [if_neg hignored, List.findSome?_eq_none_iff]
        constructor
        · intro hnone comparison hmem hcomparison
          refine ⟨field, hcomparison ▸ hget, Or.inr ?_⟩
          rw [hcomparison]
          exact hnone _ ((hdemands _).mpr ⟨comparison, hmem, hcomparison, rfl⟩)
        · intro hpermits demand hdemand
          obtain ⟨comparison, hmem, hcomparison, rfl⟩ := (hdemands demand).mp hdemand
          obtain ⟨found, hfound, hmet⟩ := hpermits comparison hmem hcomparison
          rw [hcomparison, hget, Option.some_inj] at hfound
          subst hfound
          rw [hcomparison] at hmet
          exact hmet.resolve_left hignored

/-- An expression is valid when it is a condition and all of its comparisons are
permitted. -/
theorem validate_eq_ok_iff (e : Expr) :
    registry.validate e = .ok () ↔
      e.survey.violation = none ∧
        ∀ comparison ∈ e.survey.comparisons, registry.Permits comparison := by
  have hok : registry.validate e = .ok () ↔ failure? (registry.validate e) = none := by
    rw [failure?_eq_none_iff]
    constructor
    · intro hok
      exact ⟨(), hok⟩
    · rintro ⟨_, hok⟩
      exact hok
  rw [hok, failure?_validate, Option.or_eq_none_iff, Option.map_eq_none_iff,
    List.findSome?_eq_none_iff]
  refine and_congr_right fun _ => ?_
  constructor
  · intro hnone comparison hmem
    have hmentioned : comparison.field ∈ e.survey.comparisons.map Comparison.field :=
      List.mem_map.mpr ⟨comparison, hmem, rfl⟩
    have hfield := hnone comparison.field (List.mem_eraseDups.mpr hmentioned)
    rw [objection_ofField_eq_none_iff registry _ _ hmentioned] at hfield
    exact hfield comparison hmem rfl
  · intro hpermits name hname
    rw [objection_ofField_eq_none_iff registry _ _ (List.mem_eraseDups.mp hname)]
    intro comparison hmem _
    exact hpermits comparison hmem

theorem objection_eq_some {name : String} {demands : List Demand} {e : ConditionError}
    {field : Field R} (hget : registry.get? name = some field)
    (hobjection : registry.objection name demands = some e) :
    (∃ value reason, e = .invalidValue name value reason) ∨
      ∃ value, e = .invalidOperator name value := by
  simp only [objection, hget] at hobjection
  by_cases hignored : field.isIgnored = true
  · rw [if_pos hignored] at hobjection
    exact absurd hobjection (by simp)
  · rw [if_neg hignored] at hobjection
    obtain ⟨demand, -, hdemand⟩ := List.exists_of_findSome?_eq_some hobjection
    unfold Field.objection at hdemand
    cases hclean : field.clean demand.value with
    | error reason =>
        rw [hclean] at hdemand
        simp only [Option.some_inj] at hdemand
        exact Or.inl ⟨demand.value, reason, hdemand.symm⟩
    | ok value =>
        rw [hclean] at hdemand
        simp only at hdemand
        by_cases hpermitted : field.operators.contains demand.comparator = true
        · rw [if_pos hpermitted] at hdemand
          exact absurd hdemand (by simp)
        · rw [if_neg hpermitted, Option.some_inj] at hdemand
          exact Or.inr ⟨demand.value, hdemand.symm⟩

end Registry

end RecordCondition
