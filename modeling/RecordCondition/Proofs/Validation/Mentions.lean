import RecordCondition.Proofs.Grammar.Faults
import RecordCondition.Proofs.Validation.Objection

/-!
# Which refusal is reported

A condition mentions fields: each of its pairs names one, with a value and a
comparator.  A validation accepts a condition when it has nothing against any of
its mentions.  Otherwise it reports the first refusal with the mentions put
together by field, fields in the order of first mention, and this need not be
the first refusal in the order in which the condition is written.
-/

namespace RecordCondition

structure Mention where
  field : String
  value : String
  comparator : Comparator
  deriving DecidableEq, Repr

/-- A name behind a literal is the field all the same, and the comparator stays
as it is written. -/
def Comparison.mention : Comparison → Mention
  | ⟨.literal value, comparator, .identifier name⟩ => ⟨name, value.display, comparator⟩
  | ⟨left, comparator, right⟩ => ⟨left.display, right.display, comparator⟩

def Expr.mentions (e : Expr) : List Mention :=
  e.pairs.map Comparison.mention

namespace Mention

def ofField (mentions : List Mention) (name : String) : List Mention :=
  mentions.filter fun mention => mention.field = name

def byField (mentions : List Mention) : List Mention :=
  (mentions.map field).eraseDups.flatMap (ofField mentions)

theorem mem_byField {mentions : List Mention} {mention : Mention} :
    mention ∈ byField mentions ↔ mention ∈ mentions := by
  simp only [byField, ofField, List.mem_flatMap, List.mem_eraseDups, List.mem_filter,
    List.mem_map, decide_eq_true_eq]
  constructor
  · rintro ⟨name, -, hmem, -⟩
    exact hmem
  · intro hmem
    exact ⟨mention.field, ⟨mention, hmem, rfl⟩, hmem, rfl⟩

end Mention

/-! ## Mentions and comparisons -/

theorem Comparison.mention_eq (comparison : Comparison) :
    comparison.mention =
      ⟨comparison.field, comparison.value, comparison.comparator⟩ := by
  obtain ⟨left, comparator, right⟩ := comparison
  cases left <;> cases right <;> rfl

theorem Demands.ofField_eq (comparisons : List Comparison) (name : String) :
    Demands.ofField comparisons name =
      (Mention.ofField (comparisons.map Comparison.mention) name).map
        fun mention => ⟨mention.value, mention.comparator⟩ := by
  simp only [Demands.ofField, Mention.ofField, List.filter_map, List.map_map]
  simp only [Function.comp_def, Comparison.mention_eq]
  rfl

namespace Registry

variable {R : Type} (registry : Registry R)

/-- What is wrong with a mention: that there is no such field, its value, or its
comparator, asked in this order. -/
def refusal (mention : Mention) : Option ConditionError :=
  match registry.get? mention.field with
  | none => some (.unknownField mention.field)
  | some field =>
      if field.isIgnored then
        none
      else
        match field.clean mention.value with
        | .error reason => some (.invalidValue mention.field mention.value reason)
        | .ok _ =>
            if field.operators.contains mention.comparator then none
            else some (.invalidOperator mention.field mention.value)

theorem refusal_eq_none_iff (mention : Mention) :
    registry.refusal mention = none ↔
      ∃ field, registry.get? mention.field = some field ∧
        (field.isIgnored = true ∨
          (∃ cleaned, field.clean mention.value = .ok cleaned) ∧
            field.operators.contains mention.comparator = true) := by
  unfold refusal
  cases registry.get? mention.field with
  | none => simp
  | some field =>
      by_cases hignored : field.isIgnored = true
      · simp [hignored]
      · cases hclean : field.clean mention.value with
        | error reason => simp [hignored, hclean]
        | ok cleaned => simp [hignored, hclean]

theorem objection_eq_findSome?_refusal {name : String} {mentions : List Mention}
    (hname : ∀ mention ∈ mentions, mention.field = name) (hsome : mentions ≠ []) :
    (registry.objection name
        (mentions.map fun mention => ⟨mention.value, mention.comparator⟩)) =
      mentions.findSome? registry.refusal := by
  unfold objection
  cases hget : registry.get? name with
  | none =>
      obtain ⟨first, others, rfl⟩ := List.exists_cons_of_ne_nil hsome
      have hfirst := hname first List.mem_cons_self
      simp [refusal, hfirst, hget]
  | some field =>
      simp only
      by_cases hignored : field.isIgnored = true
      · rw [if_pos hignored]
        symm
        rw [List.findSome?_eq_none_iff]
        intro mention hmem
        simp [refusal, hname mention hmem, hget, hignored]
      · rw [if_neg hignored, List.findSome?_map]
        apply findSome?_congr
        intro mention hmem
        simp only [refusal, hname mention hmem, hget, if_neg hignored]
        rfl

theorem failure?_validate_of_conforms {e : Expr} (hconforms : e.Conforms) :
    failure? (registry.validate e) =
      (Mention.byField e.mentions).findSome? registry.refusal := by
  have hfields : e.pairs.map Comparison.field = e.mentions.map Mention.field := by
    simp [Expr.mentions, Comparison.mention_eq, Function.comp_def]
  rw [failure?_validate, Expr.survey_of_conforms hconforms, Option.map_none, Option.none_or,
    Mention.byField, findSome?_flatMap, hfields]
  apply findSome?_congr
  intro name hname
  rw [List.mem_eraseDups] at hname
  obtain ⟨mention, hmention, rfl⟩ := List.mem_map.mp hname
  rw [Demands.ofField_eq]
  apply registry.objection_eq_findSome?_refusal
  · intro other hother
    exact of_decide_eq_true (List.mem_filter.mp hother).2
  · exact List.ne_nil_of_mem (List.mem_filter.mpr ⟨hmention, decide_eq_true rfl⟩)

theorem refusal_eq_none_of_validate {e : Expr} (hvalid : registry.validate e = .ok ()) :
    e.Conforms ∧ ∀ mention ∈ e.mentions, registry.refusal mention = none := by
  have hconforms := Expr.conforms_of_survey ((registry.validate_eq_ok_iff e).mp hvalid).1
  have hfailure := registry.failure?_validate_of_conforms hconforms
  rw [hvalid] at hfailure
  have hnone := List.findSome?_eq_none_iff.mp hfailure.symm
  exact ⟨hconforms, fun mention hmem => hnone mention (Mention.mem_byField.mpr hmem)⟩

/-- A condition is valid when every field that it mentions is registered and, if it
is checked, accepts the value and permits the comparator.  Otherwise the first
refusal is reported, with the mentions taken by field. -/
theorem validate_of_conforms {e : Expr} (hconforms : e.Conforms) :
    (registry.validate e = .ok () ↔
      ∀ mention ∈ e.mentions, ∃ field, registry.get? mention.field = some field ∧
        (field.isIgnored = true ∨
          (∃ cleaned, field.clean mention.value = .ok cleaned) ∧
            field.operators.contains mention.comparator = true)) ∧
    ∀ error, registry.validate e = .error error ↔
      ∃ before mention behind,
        Mention.byField e.mentions = before ++ mention :: behind ∧
        (∀ earlier ∈ before, registry.refusal earlier = none) ∧
        registry.refusal mention = some error := by
  have hfailure := registry.failure?_validate_of_conforms hconforms
  constructor
  · have hok : registry.validate e = .ok () ↔ failure? (registry.validate e) = none := by
      cases registry.validate e <;> simp [failure?]
    rw [hok, hfailure, List.findSome?_eq_none_iff]
    simp only [Mention.mem_byField, refusal_eq_none_iff]
  · intro error
    rw [← failure?_eq_some_iff, hfailure, List.findSome?_eq_some_iff]
    constructor
    · rintro ⟨before, mention, behind, hsplit, hrefusal, hbefore⟩
      exact ⟨before, mention, behind, hsplit, hbefore, hrefusal⟩
    · rintro ⟨before, mention, behind, hsplit, hbefore, hrefusal⟩
      exact ⟨before, mention, behind, hsplit, hrefusal, hbefore⟩

/-- The field that is lost comes before the comparator that is not permitted, yet the
field of the latter is mentioned earlier. -/
theorem validate_of_conforms_regrouped :
    let registry : Registry String := .ofList
      [("code", .typed { column := ⟨.text, Cell.one⟩, operators := .textual }),
        ("note", .bare)]
    let e : Expr := .junction .and
      [.compare (.name "code") [.equal] [.constant (.text "a")],
        .compare (.name "note") [.greater] [.name "other"],
        .compare (.name "lost") [.equal] [.constant (.truth true)],
        .compare (.constant (.text "m")) [.less] [.name "code"]]
    e.Conforms ∧ registry.validate e = .error (.invalidOperator "code" "m") ∧
      ∃ before mention behind,
        Mention.byField e.mentions = before ++ mention :: behind ∧
        (∀ earlier ∈ before, registry.refusal earlier = none) ∧
        registry.refusal mention = some (.invalidOperator "code" "m") := by
  intro registry e
  have hconforms : e.Conforms := (Expr.conforms_iff e).mpr (by decide)
  have hvalidate : registry.validate e = .error (.invalidOperator "code" "m") := rfl
  exact ⟨hconforms, hvalidate,
    ((validate_of_conforms registry hconforms).2 _).mp hvalidate⟩

end Registry

end RecordCondition
