import RecordCondition.Proofs.Build.Tests
import RecordCondition.Proofs.Predicate.Joining
import Mathlib.Logic.Relation

/-!
# Conditions written differently

A condition can be rewritten without a change of what it asks for: groups of one
operation flow into each other, a group of one value is that value, a chain is the
conjunction of its pairs, a literal may change sides with its comparator turned
around, and a literal counts only by its text.  Conditions that such rewritings lead
from one to the other build the same predicate, or are refused for the same reason.

Rewriting keeps the order of the comparisons, so the first comparison that no field
can carry out stays the first.  That an expression conforms matters where a chain is
taken apart: its pairs are built one by one, while a chain with a fault further on is
refused before any of its fields is looked up.
-/

namespace RecordCondition

/-! ## Rewriting -/

/-- A relation between its two neighbours as a comparison of its own. -/
def Expr.ofStep : Expr × Relation × Expr → Expr
  | (left, relation, right) => .compare left [relation] [right]

/-- A single rewriting, which may take place anywhere inside junctions. -/
inductive Expr.Rewrites : Expr → Expr → Prop
  | inside {op : Junction} {before behind : List Expr} {value other : Expr} :
      Rewrites value other →
      Rewrites (.junction op (before ++ value :: behind))
        (.junction op (before ++ other :: behind))
  | flatten {op : Junction} {before values behind : List Expr} :
      Rewrites (.junction op (before ++ .junction op values :: behind))
        (.junction op (before ++ values ++ behind))
  | single {op : Junction} {value : Expr} : Rewrites (.junction op [value]) value
  | expand {left : Expr} {relations : List Relation} {operands : List Expr} :
      relations ≠ [] → relations.length = operands.length →
      Rewrites (.compare left relations operands)
        (.junction .and ((chainSteps left relations operands).map Expr.ofStep))
  | turn {value : Literal} {comparator : Comparator} {id : String} :
      Rewrites (.compare (.constant value) [comparator.relation] [.name id])
        (.compare (.name id) [comparator.converse.relation] [.constant value])
  | respellLeft {value other : Literal} {relations : List Relation} {operands : List Expr} :
      value.display = other.display →
      Rewrites (.compare (.constant value) relations operands)
        (.compare (.constant other) relations operands)
  | respell {left : Expr} {relations : List Relation} {before behind : List Expr}
      {value other : Literal} :
      value.display = other.display →
      Rewrites (.compare left relations (before ++ .constant value :: behind))
        (.compare left relations (before ++ .constant other :: behind))

/-- Some rewritings, forwards or backwards, lead from one to the other. -/
def Expr.Interchangeable : Expr → Expr → Prop :=
  Relation.EqvGen Expr.Rewrites

/-! ## Conditions stay conditions -/

@[simp] theorem Expr.isOperand_constant (value : Literal) :
    (Expr.constant value).IsOperand := trivial

theorem Expr.ofStep_conforms_iff (step : Expr × Relation × Expr) :
    (Expr.ofStep step).Conforms ↔ (Comparison.ofStep? step).isSome = true := by
  obtain ⟨left, relation, right⟩ := step
  rw [Expr.ofStep, Expr.compare_conforms_iff_steps (List.cons_ne_nil _ _) rfl]
  exact List.forall_mem_singleton

/-- A rewriting leads from conditions to conditions, and from nothing else to them. -/
theorem Expr.Rewrites.conforms_iff {e other : Expr} (hrewrites : e.Rewrites other) :
    e.Conforms ↔ other.Conforms := by
  induction hrewrites with
  | inside _ ih =>
      simp only [Expr.junction_conforms_iff, List.forall_mem_append, List.forall_mem_cons, ih]
  | flatten =>
      simp only [Expr.junction_conforms_iff, List.forall_mem_append, List.forall_mem_cons,
        and_assoc]
  | single => rw [Expr.junction_conforms_iff, List.forall_mem_singleton]
  | expand hsome hlength =>
      rw [Expr.junction_conforms_iff, List.forall_mem_map,
        Expr.compare_conforms_iff_steps hsome hlength]
      simp only [Expr.ofStep_conforms_iff]
  | @turn value comparator id =>
      have hconverse := Comparator.ofRelation?_relation comparator.converse
      have hcomparator := Comparator.ofRelation?_relation comparator
      simp [Expr.compare_conforms_iff_parts, Expr.IsOperand, hcomparator, hconverse]
  | respellLeft _ =>
      simp only [Expr.compare_conforms_iff_parts, Expr.isOperand_constant]
  | respell _ =>
      simp only [Expr.compare_conforms_iff_parts, Expr.isOperand_constant,
        List.forall_mem_append, List.forall_mem_cons, List.length_append, List.length_cons]

/-! ## Literals by their text -/

def Operand.plain : Operand → Operand
  | .identifier name => .identifier name
  | .literal value => .literal (.text value.display)

def Comparison.plain (comparison : Comparison) : Comparison :=
  ⟨comparison.left.plain, comparison.comparator, comparison.right.plain⟩

def Expr.plain : Expr → Expr
  | .constant value => .constant (.text value.display)
  | e => e

theorem Expr.operand?_plain (e : Expr) : e.plain.operand? = e.operand?.map Operand.plain := by
  cases e <;> rfl

theorem Comparison.ofStep?_plain (left : Expr) (relation : Relation) (right : Expr) :
    Comparison.ofStep? (left.plain, relation, right.plain) =
      (Comparison.ofStep? (left, relation, right)).map Comparison.plain := by
  simp only [Comparison.ofStep?, Expr.operand?_plain]
  cases left.operand? <;> cases Comparator.ofRelation? relation <;>
    cases right.operand? <;> rfl

theorem chainPairs_plain (left : Expr) (relations : List Relation) (operands : List Expr) :
    chainPairs left.plain relations (operands.map Expr.plain) =
      (chainPairs left relations operands).map Comparison.plain := by
  induction relations generalizing left operands with
  | nil => simp [chainPairs, chainSteps]
  | cons relation relations ih =>
      cases operands with
      | nil => simp [chainPairs, chainSteps]
      | cons operand operands =>
          rw [List.map_cons, neighbours_cons, neighbours_cons, ih, Comparison.ofStep?_plain,
            List.map_append]
          cases Comparison.ofStep? (left, relation, operand) <;> rfl

/-! ## Building what was rewritten -/

namespace Registry

variable {R : Type} (registry : Registry R)

theorem build_junction_singleton (op : Junction) (value : Expr) :
    registry.build (.junction op [value]) = registry.build value := by
  rw [build_junction, List.mapM_cons, List.mapM_nil]
  cases registry.build value with
  | error e => rfl
  | ok predicate => exact congrArg Except.ok (Predicate.joinAll_singleton op predicate)

/-- The values of a junction may be built in two parts, and the first failure is that
of the first part if there is one. -/
theorem build_junction_append (op : Junction) (before behind : List Expr) :
    registry.build (.junction op (before ++ behind)) =
      (registry.build (.junction op before)).bind fun left =>
        (registry.build (.junction op behind)).map fun right => left.join op right := by
  rw [build_junction, build_junction, build_junction, List.mapM_append]
  cases before.mapM registry.build with
  | error e => rfl
  | ok lefts =>
      cases behind.mapM registry.build with
      | error e => rfl
      | ok rights => exact congrArg Except.ok (Predicate.joinAll_append op lefts rights)

theorem build_junction_congr {op : Junction} {values others : List Expr}
    (hbuild : registry.build (.junction op values) = registry.build (.junction op others))
    (before behind : List Expr) :
    registry.build (.junction op (before ++ values ++ behind)) =
      registry.build (.junction op (before ++ others ++ behind)) := by
  simp only [build_junction_append, hbuild]

theorem build_compare_of_conforms {left : Expr} {relations : List Relation}
    {operands : List Expr} (hconforms : (Expr.compare left relations operands).Conforms) :
    registry.build (.compare left relations operands) =
      ((chainPairs left relations operands).mapM registry.buildComparison).map
        (Predicate.joinAll .and) := by
  rw [build_compare, Comparison.pairs_eq, (Expr.compare_conforms_iff _ _ _).mp hconforms]

theorem buildComparison_plain (comparison : Comparison) :
    registry.buildComparison comparison.plain = registry.buildComparison comparison := by
  obtain ⟨left, comparator, right⟩ := comparison
  cases left <;> cases right <;> rfl

theorem build_ofStep {step : Expr × Relation × Expr} {pair : Comparison}
    (hpair : Comparison.ofStep? step = some pair) :
    registry.build (Expr.ofStep step) = registry.buildComparison pair := by
  have hconforms : (Expr.ofStep step).Conforms := by
    rw [Expr.ofStep_conforms_iff, hpair, Option.isSome_some]
  obtain ⟨left, relation, right⟩ := step
  have hpairs : chainPairs left [relation] [right] = [pair] := by
    rw [neighbours_cons, hpair]
    rfl
  rw [Expr.ofStep, build_compare_of_conforms registry hconforms, hpairs, List.mapM_cons,
    List.mapM_nil]
  cases registry.buildComparison pair with
  | error e => rfl
  | ok predicate => exact congrArg Except.ok (Predicate.joinAll_singleton .and predicate)

theorem mapM_build_ofStep {steps : List (Expr × Relation × Expr)}
    (hsteps : ∀ step ∈ steps, (Comparison.ofStep? step).isSome = true) :
    (steps.map Expr.ofStep).mapM registry.build =
      (steps.filterMap Comparison.ofStep?).mapM registry.buildComparison := by
  induction steps with
  | nil => rfl
  | cons step steps ih =>
      rw [List.forall_mem_cons] at hsteps
      obtain ⟨pair, hpair⟩ := Option.isSome_iff_exists.mp hsteps.1
      rw [List.map_cons, List.mapM_cons, List.filterMap_cons_some hpair, List.mapM_cons,
        registry.build_ofStep hpair, ih hsteps.2]

theorem build_compare_eq_of_plain {left other : Expr} {relations : List Relation}
    {operands others : List Expr}
    (hconforms : (Expr.compare left relations operands).Conforms)
    (hother : (Expr.compare other relations others).Conforms)
    (hleft : left.plain = other.plain)
    (hoperands : operands.map Expr.plain = others.map Expr.plain) :
    registry.build (.compare left relations operands) =
      registry.build (.compare other relations others) := by
  have hplain : ∀ pairs : List Comparison,
      pairs.mapM registry.buildComparison =
        (pairs.map Comparison.plain).mapM registry.buildComparison := by
    intro pairs
    rw [List.mapM_map]
    exact congrArg (fun build => pairs.mapM build)
      (funext fun pair => (registry.buildComparison_plain pair).symm)
  rw [registry.build_compare_of_conforms hconforms, registry.build_compare_of_conforms hother,
    hplain, hplain (chainPairs other relations others), ← chainPairs_plain, ← chainPairs_plain,
    hleft, hoperands]

theorem build_eq_of_rewrites {e other : Expr} (hrewrites : e.Rewrites other)
    (hconforms : e.Conforms) : registry.build e = registry.build other := by
  have hother := hrewrites.conforms_iff.mp hconforms
  induction hrewrites with
  | @inside op before behind value other hvalue ih =>
      rw [Expr.junction_conforms_iff] at hconforms hother
      have hbuild := ih (hconforms value (by simp)) (hother other (by simp))
      rw [List.append_cons, List.append_cons before other]
      apply build_junction_congr
      rw [build_junction_singleton, build_junction_singleton, hbuild]
  | flatten =>
      rw [List.append_cons]
      exact registry.build_junction_congr (registry.build_junction_singleton _ _) _ _
  | single => exact registry.build_junction_singleton _ _
  | expand hsome hlength =>
      rw [build_compare_of_conforms registry hconforms, build_junction, mapM_build_ofStep]
      · rfl
      · exact (Expr.compare_conforms_iff_steps hsome hlength).mp hconforms
  | @turn value comparator id =>
      have hpair : Comparison.ofStep? (.constant value, comparator.relation, .name id) =
          some ⟨.literal value, comparator, .identifier id⟩ := by
        simp [Comparison.ofStep?, Expr.operand?]
      have hturned :
          Comparison.ofStep? (.name id, comparator.converse.relation, .constant value) =
            some ⟨.identifier id, comparator.converse, .literal value⟩ := by
        simp [Comparison.ofStep?, Expr.operand?]
      exact (registry.build_ofStep hpair).trans (registry.build_ofStep hturned).symm
  | respellLeft htext =>
      apply registry.build_compare_eq_of_plain hconforms hother _ rfl
      rw [Expr.plain, Expr.plain, htext]
  | respell htext =>
      apply registry.build_compare_eq_of_plain hconforms hother rfl
      simp only [List.map_append, List.map_cons, Expr.plain, htext]

/-- Conditions that rewritings lead from one to the other build the same predicate, or
fail for the same reason. -/
theorem build_eq_of_interchangeable {e other : Expr} (hconforms : e.Conforms)
    (hsame : e.Interchangeable other) : registry.build e = registry.build other := by
  have hinvariant : (e.Conforms ↔ other.Conforms) ∧
      (e.Conforms → registry.build e = registry.build other) := by
    clear hconforms
    -- Rewritings lead backwards as well, so conforming is kept in both directions.
    induction hsame with
    | rel e other hrewrites =>
        exact ⟨hrewrites.conforms_iff, registry.build_eq_of_rewrites hrewrites⟩
    | refl e => exact ⟨Iff.rfl, fun _ => rfl⟩
    | symm e other _ ih =>
        exact ⟨ih.1.symm, fun hother => (ih.2 (ih.1.mpr hother)).symm⟩
    | trans e middle other _ _ ihfirst ihsecond =>
        refine ⟨ihfirst.1.trans ihsecond.1, fun hconforms => ?_⟩
        exact (ihfirst.2 hconforms).trans (ihsecond.2 (ihfirst.1.mp hconforms))
  exact hinvariant.2 hconforms

/-- A group with a chain that a literal begins, and the same comparisons side by side
with the name in front everywhere and the number in quotes. -/
theorem build_eq_of_interchangeable_chain :
    let registry : Registry (String × String) := .ofList
      [("code", .typed { column := ⟨.text, fun record => .one record.1⟩, operators := .all }),
        ("note", .typed { column := ⟨.text, fun record => .one record.2⟩, operators := .all })]
    let between : Expr := .compare (.constant (.text "a")) [.less, .lessEqual]
      [.name "code", .constant (.text "m")]
    let above : Expr := .compare (.name "code") [.greater] [.constant (.text "a")]
    let below : Expr := .compare (.name "code") [.lessEqual] [.constant (.text "m")]
    let number : Expr := .compare (.name "note") [.notEqual] [.constant (.number "5")]
    let quoted : Expr := .compare (.name "note") [.notEqual] [.constant (.text "5")]
    let grouped : Expr := .junction .and [.junction .and [between], number]
    let flat : Expr := .junction .and [above, below, quoted]
    grouped.Conforms ∧ grouped.Interchangeable flat ∧
      ∃ predicate, registry.build grouped = .ok predicate ∧
        registry.build flat = .ok predicate := by
  intro registry between above below number quoted grouped flat
  have hconforms : grouped.Conforms :=
    Expr.conforms_of_survey (by rfl)
  let turned : Expr := .compare (.constant (.text "a")) [.less] [.name "code"]
  have hflatten : grouped.Rewrites (.junction .and [between, number]) :=
    @Expr.Rewrites.flatten .and [] [between] [number]
  have hexpand : Expr.Rewrites (.junction .and [between, number])
      (.junction .and [.junction .and [turned, below], number]) :=
    @Expr.Rewrites.inside .and [] [number] _ _ (.expand (by decide) rfl)
  have hflattenAgain :
      Expr.Rewrites (.junction .and [.junction .and [turned, below], number])
        (.junction .and [turned, below, number]) :=
    @Expr.Rewrites.flatten .and [] [turned, below] [number]
  have hturn : Expr.Rewrites (.junction .and [turned, below, number])
      (.junction .and [above, below, number]) :=
    @Expr.Rewrites.inside .and [] [below, number] _ _ (@Expr.Rewrites.turn _ .less _)
  have hrespell : Expr.Rewrites (.junction .and [above, below, quoted])
      (.junction .and [above, below, number]) :=
    @Expr.Rewrites.inside .and [above, below] [] _ _
      (@Expr.Rewrites.respell _ _ [] [] (.text "5") (.number "5") rfl)
  have hsame : grouped.Interchangeable flat :=
    ((((Relation.EqvGen.rel _ _ hflatten).trans _ _ _ (.rel _ _ hexpand)).trans _ _ _
      (.rel _ _ hflattenAgain)).trans _ _ _ (.rel _ _ hturn)).trans _ _ _
      ((Relation.EqvGen.rel _ _ hrespell).symm)
  obtain ⟨predicate, hbuild⟩ : ∃ predicate, registry.build grouped = .ok predicate := ⟨_, rfl⟩
  have hequal := registry.build_eq_of_interchangeable hconforms hsame
  exact ⟨hconforms, hsame, predicate, hbuild, hequal ▸ hbuild⟩

end Registry

end RecordCondition
