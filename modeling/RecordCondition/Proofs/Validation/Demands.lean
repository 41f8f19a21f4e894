import Mathlib.Data.List.Induction
import RecordCondition.Proofs.Expr.Induction
import RecordCondition.Proofs.Grammar.Survey
import RecordCondition.Proofs.Grammar.Walk
import RecordCondition.Validation

/-!
# What is demanded of the fields

The demands that a walk leaves behind are its comparisons put together by field:
one entry for each field, in the order of first mention, and in the entry what
the comparisons of that field ask for, in their own order.
-/

namespace RecordCondition

def Comparison.demand (comparison : Comparison) : Demand :=
  ⟨comparison.value, comparison.comparator⟩

theorem eraseDups_append_singleton (names : List String) (name : String) :
    (names ++ [name]).eraseDups =
      if name ∈ names then names.eraseDups else names.eraseDups ++ [name] := by
  rw [List.eraseDups_append]
  by_cases hname : name ∈ names
  · rw [if_pos hname]
    simp [List.removeAll, hname]
  · rw [if_neg hname]
    simp [List.removeAll, hname, List.eraseDups_cons]

theorem nodup_eraseDups (names : List String) : names.eraseDups.Nodup := by
  induction names using List.reverseRecOn with
  | nil => exact List.nodup_nil
  | append_singleton names name ih =>
      rw [eraseDups_append_singleton]
      by_cases hname : name ∈ names
      · rw [if_pos hname]
        exact ih
      · rw [if_neg hname, List.nodup_append]
        refine ⟨ih, List.pairwise_singleton _ name, ?_⟩
        intro earlier hearlier later hlater
        rw [List.mem_singleton] at hlater
        rw [List.mem_eraseDups] at hearlier
        rintro rfl
        exact hname (hlater ▸ hearlier)

namespace Demands

theorem record_map_of_mem (field : String) (demand : Demand)
    (demands : String → List Demand) (names : List String)
    (hnodup : names.Nodup)
    (hfield : field ∈ names) :
    record field demand (names.map fun name => (name, demands name)) =
      names.map fun name =>
        (name, demands name ++ if field = name then [demand] else []) := by
  induction names with
  | nil => exact absurd hfield List.not_mem_nil
  | cons first names ih =>
      rw [List.nodup_cons] at hnodup
      rw [List.map_cons, List.map_cons, record]
      by_cases hfirst : first = field
      · subst hfirst
        rw [if_pos rfl, if_pos rfl]
        congr 1
        apply List.map_congr_left
        intro name hname
        have hother : first ≠ name := by
          rintro rfl
          exact hnodup.1 hname
        rw [if_neg hother, List.append_nil]
      · have hrest : field ∈ names := by
          rcases List.mem_cons.mp hfield with heq | hmem
          · exact absurd heq.symm hfirst
          · exact hmem
        rw [if_neg hfirst, if_neg (Ne.symm hfirst), List.append_nil, ih hnodup.2 hrest]

theorem record_map_of_not_mem (field : String) (demand : Demand)
    (demands : String → List Demand) (names : List String)
    (hfield : field ∉ names) :
    record field demand (names.map fun name => (name, demands name)) =
      (names.map fun name => (name, demands name)) ++ [(field, [demand])] := by
  induction names with
  | nil => rfl
  | cons first names ih =>
      rw [List.mem_cons, not_or] at hfield
      rw [List.map_cons, record, if_neg (Ne.symm hfield.1), ih hfield.2]
      rfl

def ofField (comparisons : List Comparison) (name : String) : List Demand :=
  (comparisons.filter fun comparison => comparison.field = name).map Comparison.demand

theorem ofField_append_singleton (comparisons : List Comparison)
    (comparison : Comparison) (name : String) :
    ofField (comparisons ++ [comparison]) name =
      ofField comparisons name ++
        if comparison.field = name then [comparison.demand] else [] := by
  unfold ofField
  rw [List.filter_append, List.map_append]
  by_cases hname : comparison.field = name
  · simp [hname]
  · simp [hname]

theorem recordAll_nil (comparisons : List Comparison) :
    recordAll [] comparisons =
      (comparisons.map Comparison.field).eraseDups.map fun name =>
        (name, ofField comparisons name) := by
  induction comparisons using List.reverseRecOn with
  | nil => rfl
  | append_singleton comparisons comparison ih =>
      have hstep : recordAll [] (comparisons ++ [comparison]) =
          (recordAll [] comparisons).recordComparison comparison := by
        simp only [recordAll, List.foldl_append, List.foldl_cons, List.foldl_nil]
      have hdemand : (⟨comparison.value, comparison.comparator⟩ : Demand) =
          comparison.demand := rfl
      rw [hstep, ih, recordComparison, hdemand, List.map_append, List.map_singleton,
        eraseDups_append_singleton]
      simp only [ofField_append_singleton]
      by_cases hfield : comparison.field ∈ comparisons.map Comparison.field
      · rw [if_pos hfield]
        apply record_map_of_mem
        · exact nodup_eraseDups _
        · exact List.mem_eraseDups.mpr hfield
      · have hfresh : comparison.field ∉
            (comparisons.map Comparison.field).eraseDups := by
          rw [List.mem_eraseDups]
          exact hfield
        have hnone : ofField comparisons comparison.field = [] := by
          unfold ofField
          rw [List.map_eq_nil_iff, List.filter_eq_nil_iff]
          intro earlier hearlier
          rw [decide_eq_true_iff]
          intro heq
          exact hfield (List.mem_map.mpr ⟨earlier, hearlier, heq⟩)
        rw [if_neg hfield, record_map_of_not_mem _ _ _ _ hfresh, List.map_append,
          List.map_singleton, hnone, if_pos rfl]
        congr 1
        apply List.map_congr_left
        intro name hname
        have hother : comparison.field ≠ name := by
          rintro rfl
          exact hfresh hname
        rw [if_neg hother, List.append_nil]

theorem recordAll_append (demands : Demands) (first second : List Comparison) :
    demands.recordAll (first ++ second) = (demands.recordAll first).recordAll second :=
  List.foldl_append

end Demands

/-! ## The walk of the collector -/

/-- What a visitor without results of its own answers after a survey. -/
def Survey.verdict {α : Type} (survey : Survey) (output : α) : Except ConditionError α :=
  match survey.violation with
  | some e => .error (.ungrammatical e)
  | none => .ok output

theorem run_conditions_collector (values : List Expr)
    (ih :
      ∀ value ∈ values, ∀ demands : Demands,
        (collector.condition value).run demands =
          (value.survey.verdict (), demands.recordAll value.survey.comparisons))
    (demands : Demands) :
    (collector.conditions values).run demands =
      ((Expr.surveyAll values).verdict (values.map fun _ => ()),
        demands.recordAll (Expr.surveyAll values).comparisons) := by
  induction values generalizing demands with
  | nil => rfl
  | cons value values step =>
      rw [List.forall_mem_cons] at ih
      rw [Visitor.run_conditions_cons, ih.1, Expr.surveyAll, Survey.followedBy]
      cases hviolation : value.survey.violation with
      | some e =>
          simp only [Survey.verdict, hviolation]
      | none =>
          simp only [Survey.verdict, hviolation]
          rw [step ih.2, Demands.recordAll_append, Survey.verdict]
          cases (Expr.surveyAll values).violation <;> rfl

/-- The collector refuses what violates the grammar and nothing else, and keeps
the comparisons that it met before. -/
theorem run_collector (e : Expr) (demands : Demands) :
    (collector.condition e).run demands =
      (e.survey.verdict (), demands.recordAll e.survey.comparisons) := by
  induction e generalizing demands with
  | junction op values ih =>
      rw [Visitor.run_junction, run_conditions_collector values ih, Expr.survey,
        Survey.verdict]
      unfold Survey.verdict
      cases (Expr.surveyAll values).violation <;> rfl
  | compare left relations operands _ _ =>
      rw [Visitor.run_compare, Expr.survey]
      cases Comparison.pairs left relations operands <;> rfl
  | _ => rfl

/-- What remains of a validation when the walk is told by its survey. -/
theorem Registry.validate_eq {R : Type} (registry : Registry R) (e : Expr) :
    registry.validate e =
      match e.survey.violation with
      | some violation => .error (.ungrammatical violation)
      | none => registry.checkDemands (Demands.recordAll [] e.survey.comparisons) := by
  have hwalk : collector.walk e [] =
      (e.survey.verdict (), Demands.recordAll [] e.survey.comparisons) :=
    run_collector e []
  unfold Registry.validate Registry.validateAfter
  rw [hwalk, Survey.verdict]
  cases e.survey.violation <;> rfl

end RecordCondition
