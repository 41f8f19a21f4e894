import RecordCondition.Proofs.Validation.Demands

/-!
# Passes without a memory

A validator and a builder may each be used for many conditions.  What is left
behind in a visitor cannot matter where entering an expression puts the same state
in the place of any other: a walk then depends on the expression alone, and so does
every walk of a run, however the walks before it ended.

A collector is left behind with the comparisons that its walk came upon, all of
them or those in front of a violation.  A builder has nothing to leave behind.
-/

namespace RecordCondition

/-! ## Visitors that begin anew -/

/-- Entering an expression replaces whatever state there was. -/
def Visitor.BeginsAnew {σ ε α : Type} (visitor : Visitor σ ε α) : Prop :=
  ∀ state other, visitor.enter state = visitor.enter other

theorem collector_beginsAnew : collector.BeginsAnew := by
  intro state other
  rfl

theorem Registry.builder_beginsAnew {R : Type} (registry : Registry R) :
    registry.builder.BeginsAnew := by
  intro state other
  rfl

namespace Visitor

variable {σ ε α : Type} {visitor : Visitor σ ε α}

theorem BeginsAnew.walk_eq (hanew : visitor.BeginsAnew) (e : Expr) (state other : σ) :
    visitor.walk e state = visitor.walk e other := by
  unfold walk
  rw [hanew state other]

theorem BeginsAnew.walkAll_eq (hanew : visitor.BeginsAnew) (fresh state : σ)
    (es : List Expr) :
    visitor.walkAll state es = es.map fun e => visitor.walk e fresh := by
  induction es generalizing state with
  | nil => rfl
  | cons e rest ih =>
      rw [walkAll, List.map_cons, ih, hanew.walk_eq e state fresh]

end Visitor

namespace Registry

variable {R : Type} (registry : Registry R)

/-! ## Validating again -/

theorem validateAfter_eq (collected : Demands) (e : Expr) :
    registry.validateAfter collected e =
      (registry.validate e, Demands.recordAll [] e.survey.comparisons) := by
  have hwalk : collector.walk e collected =
      (e.survey.verdict (), Demands.recordAll [] e.survey.comparisons) := by
    rw [collector_beginsAnew.walk_eq e collected []]
    exact run_collector e []
  unfold validateAfter
  rw [hwalk, validate_eq, Survey.verdict]
  cases e.survey.violation <;> rfl

theorem validateAll_eq_map (collected : Demands) (es : List Expr) :
    registry.validateAll collected es = es.map registry.validate := by
  induction es generalizing collected with
  | nil => rfl
  | cons e rest ih =>
      rw [validateAll, validateAfter_eq, List.map_cons]
      simp only
      rw [ih]

/-- The demands that a validator holds after some expressions. -/
def collectedAfter (collected : Demands) (es : List Expr) : Demands :=
  es.foldl (fun collected e => (registry.validateAfter collected e).2) collected

theorem collectedAfter_concat (collected : Demands) (es : List Expr) (e : Expr) :
    registry.collectedAfter collected (es ++ [e]) =
      Demands.recordAll [] e.survey.comparisons := by
  unfold collectedAfter
  rw [List.foldl_append, List.foldl_cons, List.foldl_nil, validateAfter_eq]

/-! ## Building again -/

theorem buildAll_eq_map (es : List Expr) : registry.buildAll es = es.map registry.build := by
  unfold buildAll
  rw [registry.builder_beginsAnew.walkAll_eq () (), List.map_map]
  rfl

/-- One validator answers to every expression of a run what a new one answers to it
alone, whatever it held at the start, and holds afterwards what the last walk came
upon and nothing from before.  One builder answers what a new one does. -/
theorem reuse_answers_afresh (collected : Demands) (es : List Expr) :
    registry.validateAll collected es = es.map registry.validate ∧
      registry.buildAll es = es.map registry.build ∧
      ∀ before e,
        (∀ behind, (registry.validateAll collected (before ++ e :: behind))[before.length]? =
          some (registry.validate e)) ∧
        registry.validateAfter (registry.collectedAfter collected before) e =
          registry.validateAfter [] e ∧
        registry.collectedAfter collected (before ++ [e]) =
          Demands.recordAll [] e.survey.comparisons := by
  refine ⟨registry.validateAll_eq_map collected es, registry.buildAll_eq_map es, ?_⟩
  intro before e
  refine ⟨?_, ?_, registry.collectedAfter_concat collected before e⟩
  · intro behind
    rw [validateAll_eq_map, List.map_append, List.map_cons]
    simp
  · rw [validateAfter_eq, validateAfter_eq]

end Registry

end RecordCondition
