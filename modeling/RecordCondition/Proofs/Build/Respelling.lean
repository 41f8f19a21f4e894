import Mathlib.Control.Monad.Basic
import RecordCondition.Proofs.Build.Rewriting
import RecordCondition.Proofs.Correspondence
import RecordCondition.Proofs.Field.Cleaning
import RecordCondition.Proofs.Validation.Mentions

/-!
# Values spelled differently

A field that takes notice of values alone cannot tell two texts apart that it cleans
to one.  So the values of a condition can be spelled differently, wherever such a
field is compared with them by anything but containment, and the condition is accepted
as before and its predicate holds of the same records.

The predicate is not the same, for its leaves keep the texts.  What is the same is
whether a part is empty and what it holds of, and joining needs to know no more.
-/

namespace RecordCondition

variable {R : Type}

/-! ## Predicates that answer the same -/

structure Predicate.AnswersAs (predicate other : Predicate R) : Prop where
  isEmpty_eq : predicate.isEmpty = other.isEmpty
  holds_eq : ∀ record, predicate.holds record = other.holds record

namespace Predicate.AnswersAs

theorem refl (predicate : Predicate R) : predicate.AnswersAs predicate :=
  ⟨rfl, fun _ => rfl⟩

variable {predicates others : List (Predicate R)}

theorem all_eq (hsame : List.Forall₂ AnswersAs predicates others) {f : Predicate R → Bool}
    (hf : ∀ predicate other, AnswersAs predicate other → f predicate = f other) :
    predicates.all f = others.all f := by
  induction hsame with
  | nil => rfl
  | cons hpredicate _ ih => rw [List.all_cons, List.all_cons, hf _ _ hpredicate, ih]

theorem any_eq (hsame : List.Forall₂ AnswersAs predicates others) {f : Predicate R → Bool}
    (hf : ∀ predicate other, AnswersAs predicate other → f predicate = f other) :
    predicates.any f = others.any f := by
  induction hsame with
  | nil => rfl
  | cons hpredicate _ ih => rw [List.any_cons, List.any_cons, hf _ _ hpredicate, ih]

theorem joinAll (hsame : List.Forall₂ AnswersAs predicates others) (op : Junction) :
    (joinAll op predicates).AnswersAs (joinAll op others) := by
  have hempty : predicates.all isEmpty = others.all isEmpty :=
    all_eq hsame fun _ _ halike => halike.isEmpty_eq
  constructor
  · rw [isEmpty_joinAll, isEmpty_joinAll, hempty]
  · intro record
    cases op with
    | and =>
        rw [holds_joinAll_and, holds_joinAll_and]
        exact all_eq hsame fun _ _ halike => halike.holds_eq record
    | or =>
        rw [holds_joinAll_or, holds_joinAll_or, hempty]
        congr 1
        apply any_eq hsame
        intro predicate other halike
        rw [matters, matters, halike.isEmpty_eq, halike.holds_eq]

end Predicate.AnswersAs

/-! ## Respelled conditions -/

/-- The pairs ask one field for the same value, which they may spell differently where
the field rereads what it cleans and is not searched for the text. -/
structure Comparison.RespelledAs (registry : Registry R) (pair other : Comparison) :
    Prop where
  field : pair.field = other.field
  comparator : pair.comparator = other.comparator
  literalFirst : pair.literalFirst = other.literalFirst
  value : pair.value = other.value ∨
    ∃ field cleaned, registry.get? pair.field = some (.typed field) ∧ field.Rereads ∧
      pair.comparator.lookup ≠ .contains ∧ field.clean pair.value = .ok cleaned ∧
      field.clean other.value = .ok cleaned

/-- The same junctions of chains whose pairs are respelled one by one. -/
inductive Expr.RespelledAs (registry : Registry R) : Expr → Expr → Prop
  | junction {op : Junction} {values others : List Expr} :
      List.Forall₂ (RespelledAs registry) values others →
      RespelledAs registry (.junction op values) (.junction op others)
  | compare {left first : Expr} {relations symbols : List Relation}
      {operands others : List Expr} :
      List.Forall₂ (Comparison.RespelledAs registry) (Expr.compare left relations operands).pairs
        (Expr.compare first symbols others).pairs →
      RespelledAs registry (.compare left relations operands) (.compare first symbols others)

variable {registry : Registry R}

theorem Expr.RespelledAs.pairs {e other : Expr} (hrespelled : e.RespelledAs registry other) :
    List.Forall₂ (Comparison.RespelledAs registry) e.pairs other.pairs := by
  induction e generalizing other with
  | junction op values ih =>
      cases hrespelled with
      | junction hvalues =>
          rw [Expr.pairs_junction, Expr.pairs_junction]
          induction hvalues with
          | nil => exact .nil
          | cons hvalue _ step =>
              rw [List.forall_mem_cons] at ih
              rw [List.flatMap_cons, List.flatMap_cons]
              exact List.rel_append (ih.1 hvalue) (step ih.2)
  | compare left relations operands _ _ =>
      cases hrespelled with
      | compare hpairs => exact hpairs
  | _ => cases hrespelled

/-! ## Building -/

theorem Comparison.reorient_comparator (pair : Comparison) :
    pair.reorient.comparator =
      if pair.literalFirst then pair.comparator.converse else pair.comparator := by
  unfold Comparison.reorient
  split <;> rfl

namespace Registry

theorem buildComparison_eq (registry : Registry R) (pair : Comparison) :
    registry.buildComparison pair =
      match registry.get? pair.field with
      | none => .error (.unknownField pair.field)
      | some field =>
          match field.filter pair.reorient.comparator.lookup pair.value with
          | .error e => .error (.unusable pair.field pair.value e)
          | .ok holds =>
              let leaf : Predicate R :=
                .leaf ⟨pair.field, pair.reorient.comparator.lookup, pair.value, holds⟩
              .ok (if pair.reorient.comparator.negated then leaf.negate else leaf) := by
  have hfield : pair.reorient.left.display = pair.field := by
    rw [Comparison.reorient_left, Comparison.field]
  have hvalue : pair.reorient.right.display = pair.value := by
    rw [Comparison.reorient_right, Comparison.value]
  rw [← hfield, ← hvalue]
  rfl

theorem buildComparison_agrees_of_respelled {pair other : Comparison}
    (hrespelled : pair.RespelledAs registry other) :
    Agrees Predicate.AnswersAs (registry.buildComparison pair)
      (registry.buildComparison other) := by
  obtain ⟨hfield, hcomparator, hfirst, hvalue⟩ := hrespelled
  have horiented : pair.reorient.comparator = other.reorient.comparator := by
    rw [Comparison.reorient_comparator, Comparison.reorient_comparator, hfirst, hcomparator]
  rw [buildComparison_eq, buildComparison_eq, ← hfield, ← horiented]
  rcases hvalue with hvalue | ⟨field, cleaned, hget, hrereads, hlookup, hclean, hother⟩
  · rw [← hvalue]
    exact .refl Predicate.AnswersAs.refl _
  · have horder : pair.reorient.comparator.lookup ≠ .contains := by
      rw [Comparison.reorient_comparator]
      split
      · rw [Ne, Comparator.lookup_converse_eq_contains_iff]
        exact hlookup
      · exact hlookup
    obtain ⟨holds, hholds, hothers⟩ := hrereads.exists_filter hclean hother horder
    rw [hget]
    simp only [hholds, hothers]
    apply Agrees.ok
    cases pair.reorient.comparator.negated with
    | false => exact ⟨rfl, fun _ => rfl⟩
    | true => exact ⟨rfl, fun _ => rfl⟩

theorem build_agrees_of_respelled {e other : Expr} (hrespelled : e.RespelledAs registry other)
    (hconforms : e.Conforms) (hother : other.Conforms) :
    Agrees Predicate.AnswersAs (registry.build e) (registry.build other) := by
  induction e generalizing other with
  | junction op values ih =>
      cases hrespelled with
      | @junction _ _ others hvalues =>
          rw [Expr.junction_conforms_iff] at hconforms hother
          rw [build_junction, build_junction]
          have hparts : List.Forall₂ (fun value other =>
              Agrees Predicate.AnswersAs (registry.build value) (registry.build other))
              values others := by
            induction hvalues with
            | nil => exact .nil
            | cons hvalue _ step =>
                rw [List.forall_mem_cons] at ih hconforms hother
                exact .cons (ih.1 hvalue hconforms.1 hother.1)
                  (step ih.2 hconforms.2 hother.2)
          apply (Agrees.mapM hparts).map
          exact fun _ _ hsame => Predicate.AnswersAs.joinAll hsame op
  | compare left relations operands _ _ =>
      cases hrespelled with
      | compare hpairs =>
          rw [Expr.pairs_compare, Expr.pairs_compare] at hpairs
          rw [build_compare_of_conforms registry hconforms,
            build_compare_of_conforms registry hother]
          apply (Agrees.mapM (hpairs.imp fun _ _ => buildComparison_agrees_of_respelled)).map
          exact fun _ _ hsame => Predicate.AnswersAs.joinAll hsame .and
  | _ => cases hrespelled

/-! ## Validation -/

end Registry

/-- What an error says without the text of a value that is no fault of its own. -/
def ConditionError.unquoted : ConditionError → ConditionError
  | .invalidOperator field _ => .invalidOperator field ""
  | e => e

/-- The mentions are of one field, and there is the same to say against them. -/
structure Mention.RespelledAs (registry : Registry R) (mention other : Mention) : Prop where
  field : mention.field = other.field
  refusal : (registry.refusal mention).map ConditionError.unquoted =
    (registry.refusal other).map ConditionError.unquoted

theorem Comparison.RespelledAs.mention {pair other : Comparison}
    (hrespelled : pair.RespelledAs registry other) :
    pair.mention.RespelledAs registry other.mention := by
  obtain ⟨hfield, hcomparator, -, hvalue⟩ := hrespelled
  rw [Comparison.mention_eq, Comparison.mention_eq, ← hfield, ← hcomparator]
  refine ⟨rfl, ?_⟩
  rcases hvalue with hvalue | ⟨field, cleaned, hget, -, -, hclean, hother⟩
  · rw [hvalue]
  · have hchecked : (Field.typed field).isIgnored = false := rfl
    have hcleans : ∀ text, field.clean text = .ok cleaned →
        (Field.typed field).clean text = .ok cleaned := by
      intro text htext
      rw [Field.clean, htext]
      rfl
    unfold Registry.refusal
    simp only [hget, hchecked, hcleans _ hclean, hcleans _ hother, Bool.false_eq_true, if_false]
    by_cases hpermitted : (Field.typed field).operators.contains pair.comparator = true
    · rw [if_pos hpermitted, if_pos hpermitted]
    · rw [if_neg hpermitted, if_neg hpermitted]
      rfl

theorem Mention.RespelledAs.byField {mentions others : List Mention}
    (hsame : List.Forall₂ (Mention.RespelledAs registry) mentions others) :
    List.Forall₂ (Mention.RespelledAs registry) (byField mentions) (byField others) := by
  have hfields : mentions.map Mention.field = others.map Mention.field := by
    rw [← List.forall₂_eq_eq_eq, List.forall₂_map_left_iff, List.forall₂_map_right_iff]
    exact hsame.imp fun _ _ hmention => hmention.field
  have hofField : ∀ name, List.Forall₂ (Mention.RespelledAs registry) (ofField mentions name)
      (ofField others name) := by
    intro name
    apply List.rel_filter _ hsame
    intro mention other hmention
    simp only [hmention.field]
  unfold Mention.byField
  rw [hfields]
  induction (others.map Mention.field).eraseDups with
  | nil => exact .nil
  | cons name names ih =>
      rw [List.flatMap_cons, List.flatMap_cons]
      exact List.rel_append (hofField name) ih

namespace Registry

theorem validate_eq_of_respelled {e other : Expr} (hrespelled : e.RespelledAs registry other)
    (hconforms : e.Conforms) (hother : other.Conforms) :
    (registry.validate e).mapError ConditionError.unquoted =
      (registry.validate other).mapError ConditionError.unquoted := by
  have hmentions : List.Forall₂ (Mention.RespelledAs registry) e.mentions other.mentions := by
    unfold Expr.mentions
    rw [List.forall₂_map_left_iff, List.forall₂_map_right_iff]
    exact hrespelled.pairs.imp fun _ _ hpair => hpair.mention
  apply eq_of_failure?_eq
  rw [failure?_mapError, failure?_mapError, failure?_validate_of_conforms registry hconforms,
    failure?_validate_of_conforms registry hother]
  apply findSome?_map_eq
  exact (Mention.RespelledAs.byField hmentions).imp fun _ _ hmention => hmention.refusal

/-- A field that takes notice of values alone leaves what it has cleaned as it is, and
only containment can tell a text from what it is cleaned to.  A condition that is
respelled in such fields is accepted or refused as before, and what is built from it
holds of the same records. -/
theorem cleaned_texts_interchangeable (registry : Registry R) :
    (∀ (field : TypedField R) (raw cleaned : String), field.Rereads →
      field.clean raw = .ok cleaned →
        field.clean cleaned = .ok cleaned ∧
          ∀ lookup, lookup ≠ .contains → ∃ holds,
            (Field.typed field).filter lookup raw = .ok holds ∧
              (Field.typed field).filter lookup cleaned = .ok holds) ∧
    ∀ e other : Expr, e.Conforms → other.Conforms → e.RespelledAs registry other →
      (registry.validate e).mapError ConditionError.unquoted =
          (registry.validate other).mapError ConditionError.unquoted ∧
        Agrees (fun predicate next => ∀ record, predicate.holds record = next.holds record)
          (registry.build e) (registry.build other) := by
  constructor
  · intro field raw cleaned hrereads hclean
    have hcleaned := hrereads.clean_cleaned hclean
    refine ⟨hcleaned, ?_⟩
    intro lookup hlookup
    exact hrereads.exists_filter hclean hcleaned hlookup
  · intro e other hconforms hother hrespelled
    refine ⟨validate_eq_of_respelled hrespelled hconforms hother, ?_⟩
    have hbuild := build_agrees_of_respelled hrespelled hconforms hother
    generalize registry.build e = result, registry.build other = answer at hbuild
    cases hbuild with
    | error e => exact .error e
    | ok hsame => exact .ok hsame.holds_eq

/-- Needless signs and zeros around an optional number. -/
theorem cleaned_texts_interchangeable_signedZero :
    let field : TypedField (Option { n : Int // -128 ≤ n ∧ n ≤ 127 }) :=
      { column := ⟨.integer ⟨true, 8⟩, Cell.ofOption⟩, operators := .ordered,
        min := some ⟨-128, by decide⟩ }
    let registry : Registry (Option { n : Int // -128 ≤ n ∧ n ≤ 127 }) :=
      .ofList [("level", .typed field)]
    let e : Expr := .compare (.constant (.text "-00")) [.less, .lessEqual]
      [.name "level", .constant (.text "+007")]
    let other : Expr := .compare (.constant (.text "0")) [.less, .lessEqual]
      [.name "level", .constant (.number "7")]
    field.Rereads ∧ field.clean "-00" = .ok "0" ∧ field.clean "0" = .ok "0" ∧
      e.Conforms ∧ other.Conforms ∧ e.RespelledAs registry other ∧
      registry.validate other = .ok () ∧
      ∃ predicate next, registry.build e = .ok predicate ∧ registry.build other = .ok next ∧
        ∀ record, predicate.holds record = next.holds record := by
  intro field registry e other
  have hrereads : field.Rereads := ⟨trivial, rfl⟩
  have hzero : field.clean "-00" = .ok "0" := by decide +kernel
  have hseven : field.clean "+007" = .ok "7" := by decide +kernel
  have hconforms : e.Conforms := (Expr.conforms_iff e).mpr (by decide)
  have hother : other.Conforms := (Expr.conforms_iff other).mpr (by decide)
  have hget : registry.get? "level" = some (.typed field) := by
    simp [registry, Registry.ofList, get?_insert]
  have hcleaned := ((cleaned_texts_interchangeable registry).1 field _ _ hrereads hzero).1
  have hrespelled : e.RespelledAs registry other := by
    refine .compare (.cons ?_ (.cons ?_ .nil))
    · exact ⟨rfl, rfl, rfl,
        .inr ⟨field, "0", hget, hrereads, by decide, hzero, hcleaned⟩⟩
    · exact ⟨rfl, rfl, rfl,
        .inr ⟨field, "7", hget, hrereads, by decide, hseven, by decide +kernel⟩⟩
  have hvalidate : registry.validate other = .ok () := by decide
  have hbuild :=
    ((cleaned_texts_interchangeable registry).2 e other hconforms hother hrespelled).2
  have hbuilt : failure? (registry.build other) = none := by decide
  obtain ⟨next, hnext⟩ := failure?_eq_none_iff.mp hbuilt
  rw [hnext] at hbuild
  generalize registry.build e = result at hbuild
  refine ⟨hrereads, hzero, hcleaned, hconforms, hother, hrespelled, hvalidate, ?_⟩
  cases hbuild with
  | ok hsame => exact ⟨_, next, rfl, hnext, hsame⟩

end Registry

end RecordCondition
