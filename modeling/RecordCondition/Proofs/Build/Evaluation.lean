import RecordCondition.Proofs.Build.Equations
import RecordCondition.Proofs.Expr.Induction
import RecordCondition.Proofs.Field.Filter
import RecordCondition.Proofs.Predicate.Joining

/-!
# Predicates mean what the condition says

A predicate does not have the shape of its condition: groups are gathered up
from the empty predicate and flattened into each other, literals change sides,
and denials are wrapped around leaves.  It still holds of the records of which
the condition is true as it is written.

The induction carries a second fact along, that a predicate is empty exactly when
its condition makes no comparison.  Disjunctions need it, since an empty
predicate holds of everything and is yet no reason for a disjunction to hold.
-/

namespace RecordCondition

variable {R : Type} {registry : Registry R}

/-! ## Single links -/

theorem Registry.buildComparison_holds {comparison : Comparison} {predicate : Predicate R}
    (hbuild : registry.buildComparison comparison = .ok predicate) :
    predicate.isEmpty = false ∧
      ∀ record, predicate.holds record =
        registry.relates record comparison.reorient.left.display false
          comparison.reorient.comparator.relation
          comparison.reorient.right.display := by
  unfold Registry.buildComparison at hbuild
  simp only at hbuild
  generalize comparison.reorient = oriented at hbuild ⊢
  cases hfield : registry.get? oriented.left.display with
  | none => simp only [hfield, reduceCtorEq] at hbuild
  | some field =>
      simp only [hfield] at hbuild
      cases hfilter : field.filter oriented.comparator.lookup oriented.right.display with
      | error e => simp only [hfilter, reduceCtorEq] at hbuild
      | ok holds =>
          simp only [hfilter] at hbuild
          obtain rfl := Except.ok.inj hbuild
          constructor
          · cases oriented.comparator.negated <;> rfl
          · intro record
            rw [Field.filter_eq] at hfilter
            cases hcolumn : field.column? with
            | none => simp only [hcolumn, reduceCtorEq] at hfilter
            | some column =>
                simp only [hcolumn] at hfilter
                have hrelates := Column.relates_of_filter hfilter record
                unfold Registry.relates
                simp only [hfield, Option.bind_some, hcolumn]
                rw [hrelates]
                cases oriented.comparator.negated with
                | false => simp [Predicate.holds]
                | true => simp [Predicate.holds, Predicate.negate]

theorem Registry.relates_operandFirst (record : R) (name : String)
    (comparator : Comparator) (operand : String) :
    registry.relates record name true comparator.relation operand =
      registry.relates record name false comparator.converse.relation operand := by
  unfold Registry.relates
  cases (registry.get? name).bind Field.column? with
  | none => rfl
  | some column => exact column.relates_operandFirst record comparator operand

/-- Moving a literal behind its field, under the converse comparator, keeps what
a link says. -/
theorem Registry.holdsBetween_eq {left right : Expr} {first second : Operand}
    (hleft : Operand.ofExpr left = .ok first) (hright : Operand.ofExpr right = .ok second)
    (comparator : Comparator) (record : R) :
    registry.holdsBetween record left comparator.relation right =
      registry.relates record (Comparison.mk first comparator second).reorient.left.display
        false (Comparison.mk first comparator second).reorient.comparator.relation
        (Comparison.mk first comparator second).reorient.right.display := by
  cases left with
  | name id =>
      obtain rfl : Operand.identifier id = first := Except.ok.inj hleft
      cases right with
      | name other =>
          obtain rfl : Operand.identifier other = second := Except.ok.inj hright
          rfl
      | constant value =>
          obtain rfl : Operand.literal value = second := Except.ok.inj hright
          rfl
      | _ => cases hright
  | constant value =>
      obtain rfl : Operand.literal value = first := Except.ok.inj hleft
      cases right with
      | name id =>
          obtain rfl : Operand.identifier id = second := Except.ok.inj hright
          exact Registry.relates_operandFirst record id comparator value.display
      | constant other =>
          obtain rfl : Operand.literal other = second := Except.ok.inj hright
          rfl
      | _ => cases hright
  | _ => cases hleft

/-! ## Chains -/

theorem Comparator.ofRelation_eq_ok {relation : Relation} {comparator : Comparator}
    (hof : Comparator.ofRelation relation = .ok comparator) :
    relation = comparator.relation := by
  unfold Comparator.ofRelation at hof
  cases hrelation : Comparator.ofRelation? relation with
  | none => simp only [hrelation, reduceCtorEq] at hof
  | some found =>
      simp only [hrelation] at hof
      obtain rfl := Except.ok.inj hof
      exact Comparator.ofRelation?_eq_some_iff.mp hrelation

theorem links_cons_eq_ok {left : Operand} {relation : Relation} {relations : List Relation}
    {operand : Expr} {operands : List Expr} {pairs : List Comparison}
    (hlinks : links left (relation :: relations) (operand :: operands) = .ok pairs) :
    ∃ comparator right rest,
      relation = Comparator.relation comparator ∧
      Operand.ofExpr operand = .ok right ∧
      links right relations operands = .ok rest ∧
      pairs = ⟨left, comparator, right⟩ :: rest := by
  rw [links] at hlinks
  cases hcomparator : Comparator.ofRelation relation with
  | error e =>
      rw [hcomparator] at hlinks
      cases hlinks
  | ok comparator =>
      cases hoperand : Operand.ofExpr operand with
      | error e =>
          rw [hcomparator, hoperand] at hlinks
          cases hlinks
      | ok right =>
          cases hrest : links right relations operands with
          | error e =>
              rw [hcomparator, hoperand] at hlinks
              simp only [bind, Except.bind, hrest, reduceCtorEq] at hlinks
          | ok rest =>
              rw [hcomparator, hoperand] at hlinks
              simp only [bind, Except.bind, hrest] at hlinks
              exact ⟨comparator, right, rest, Comparator.ofRelation_eq_ok hcomparator,
                rfl, hrest, (Except.ok.inj hlinks).symm⟩

theorem Registry.all_holds_eq_holdsAlong {left : Expr} {first : Operand}
    {relations : List Relation} {operands : List Expr} {pairs : List Comparison}
    {predicates : List (Predicate R)}
    (hleft : Operand.ofExpr left = .ok first)
    (hlinks : links first relations operands = .ok pairs)
    (hbuild : List.Forall₂
      (fun pair part => registry.buildComparison pair = .ok part) pairs predicates)
    (record : R) :
    predicates.all (Predicate.holds record) =
      registry.holdsAlong record left relations operands := by
  induction relations generalizing left first operands pairs predicates with
  | nil =>
      obtain rfl : [] = pairs := Except.ok.inj hlinks
      obtain rfl := List.forall₂_nil_left_iff.mp hbuild
      simp [Registry.holdsAlong]
  | cons relation relations ih =>
      cases operands with
      | nil =>
          obtain rfl : [] = pairs := Except.ok.inj hlinks
          obtain rfl := List.forall₂_nil_left_iff.mp hbuild
          rfl
      | cons operand operands =>
          obtain ⟨comparator, right, rest, rfl, hright, hrest, rfl⟩ :=
            links_cons_eq_ok hlinks
          cases hbuild with
          | cons hpair hpairs =>
              rw [List.all_cons, (Registry.buildComparison_holds hpair).2 record,
                ih hright hrest hpairs, Registry.holdsAlong,
                Registry.holdsBetween_eq hleft hright]

theorem Comparison.pairs_eq_ok {left : Expr} {relations : List Relation}
    {operands : List Expr} {pairs : List Comparison}
    (hpairs : Comparison.pairs left relations operands = .ok pairs) :
    relations ≠ [] ∧ relations.length = operands.length ∧
      ∃ first, Operand.ofExpr left = .ok first ∧
        links first relations operands = .ok pairs := by
  unfold Comparison.pairs at hpairs
  split at hpairs
  · cases hpairs
  · next hcount =>
      simp only [Bool.or_eq_true, List.isEmpty_iff, decide_eq_true_eq, not_or,
        Decidable.not_not] at hcount
      refine ⟨hcount.1, hcount.2, ?_⟩
      cases hleft : Operand.ofExpr left with
      | error e =>
          rw [hleft] at hpairs
          cases hpairs
      | ok first =>
          rw [hleft] at hpairs
          exact ⟨first, rfl, hpairs⟩

/-! ## Whole conditions -/

/-- A predicate that means what a condition says, and is empty exactly when the
condition makes no comparison. -/
structure Predicate.Means (registry : Registry R) (predicate : Predicate R)
    (e : Expr) : Prop where
  isEmpty_eq : predicate.isEmpty = !e.compares
  holds_eq : ∀ record, predicate.holds record = registry.evaluate record e

theorem Predicate.all_isEmpty_of_means {values : List Expr}
    {predicates : List (Predicate R)}
    (hmeans : List.Forall₂ (fun value part => Predicate.Means registry part value)
      values predicates) :
    predicates.all Predicate.isEmpty = !Expr.anyCompares values := by
  induction hmeans with
  | nil => rfl
  | cons hvalue _ ih =>
      rw [List.all_cons, hvalue.isEmpty_eq, ih, Expr.anyCompares, Bool.not_or]

theorem Predicate.all_holds_of_means {values : List Expr}
    {predicates : List (Predicate R)}
    (hmeans : List.Forall₂ (fun value part => Predicate.Means registry part value)
      values predicates) (record : R) :
    predicates.all (Predicate.holds record) = registry.evaluateAll record values := by
  induction hmeans with
  | nil => rfl
  | cons hvalue _ ih =>
      rw [List.all_cons, ih, Registry.evaluateAll, ← hvalue.isEmpty_eq,
        ← hvalue.holds_eq, Predicate.holds_eq_isEmpty_or_matters, Bool.or_self_left]

theorem Predicate.any_matters_of_means {values : List Expr}
    {predicates : List (Predicate R)}
    (hmeans : List.Forall₂ (fun value part => Predicate.Means registry part value)
      values predicates) (record : R) :
    predicates.any (Predicate.matters record) = registry.evaluateAny record values := by
  induction hmeans with
  | nil => rfl
  | cons hvalue _ ih =>
      rw [List.any_cons, ih, Registry.evaluateAny, Predicate.matters,
        hvalue.isEmpty_eq, hvalue.holds_eq, Bool.not_not]

theorem Predicate.joinAll_means {op : Junction} {values : List Expr}
    {predicates : List (Predicate R)}
    (hmeans : List.Forall₂ (fun value part => Predicate.Means registry part value)
      values predicates) :
    Predicate.Means registry (.joinAll op predicates) (.junction op values) := by
  constructor
  · rw [Predicate.isEmpty_joinAll, Predicate.all_isEmpty_of_means hmeans, Expr.compares]
  · intro record
    cases op with
    | and =>
        rw [Predicate.holds_joinAll_and, Predicate.all_holds_of_means hmeans,
          Registry.evaluate]
    | or =>
        rw [Predicate.holds_joinAll_or, Predicate.all_isEmpty_of_means hmeans,
          Predicate.any_matters_of_means hmeans, Registry.evaluate]

theorem Predicate.chain_means {left : Expr} {relations : List Relation}
    {operands : List Expr} {pairs : List Comparison} {predicates : List (Predicate R)}
    (hpairs : Comparison.pairs left relations operands = .ok pairs)
    (hbuild : List.Forall₂
      (fun pair part => registry.buildComparison pair = .ok part) pairs predicates) :
    Predicate.Means registry (.joinAll .and predicates)
      (.compare left relations operands) := by
  obtain ⟨hne, hlength, first, hleft, hlinks⟩ := Comparison.pairs_eq_ok hpairs
  constructor
  · rw [Predicate.isEmpty_joinAll, Expr.compares]
    cases relations with
    | nil => exact absurd rfl hne
    | cons relation relations =>
        cases operands with
        | nil => cases hlength
        | cons operand operands =>
            obtain ⟨comparator, right, rest, -, -, -, rfl⟩ := links_cons_eq_ok hlinks
            cases hbuild with
            | cons hpair _ =>
                rw [List.all_cons, (Registry.buildComparison_holds hpair).1,
                  Bool.false_and, Bool.not_true]
  · intro record
    rw [Predicate.holds_joinAll_and,
      Registry.all_holds_eq_holdsAlong hleft hlinks hbuild record, Registry.evaluate]

theorem Registry.build_means {e : Expr} {predicate : Predicate R}
    (hbuild : registry.build e = .ok predicate) :
    Predicate.Means registry predicate e := by
  induction e generalizing predicate with
  | junction op values ih =>
      obtain ⟨predicates, hvalues, rfl⟩ := registry.build_junction_eq_ok_iff.mp hbuild
      apply Predicate.joinAll_means
      clear hbuild
      induction hvalues with
      | nil => exact .nil
      | cons hvalue _ ihvalues =>
          exact .cons (ih _ List.mem_cons_self hvalue)
            (ihvalues fun value hmem => ih value (List.mem_cons_of_mem _ hmem))
  | compare left relations operands _ _ =>
      obtain ⟨pairs, predicates, hpairs, hall, rfl⟩ :=
        registry.build_compare_eq_ok_iff.mp hbuild
      exact Predicate.chain_means hpairs hall
  | _ => cases hbuild

/-- The predicate built from a condition holds of exactly the records of which
the condition, evaluated as it is written, is true. -/
theorem Registry.build_holds_eq_evaluate {e : Expr} {predicate : Predicate R}
    (hbuild : registry.build e = .ok predicate) (record : R) :
    predicate.holds record = registry.evaluate record e :=
  (Registry.build_means hbuild).holds_eq record

/-- A chain with its literal in front, beside a group that makes no comparison. -/
theorem Registry.build_holds_eq_evaluate_literalFirst :
    let registry : Registry String := .ofList
      [("code", .over (.typed { column := ⟨.text, Cell.one⟩, operators := .textual }))]
    let e : Expr := .junction .or
      [.junction .and [],
        .compare (.constant (.text "m")) [.less, .notEqual]
          [.name "code", .constant (.text "x")]]
    ∃ predicate,
      registry.build e = .ok predicate ∧
        predicate.holds "n" = registry.evaluate "n" e := by
  intro registry e
  exact ⟨_, rfl, Registry.build_holds_eq_evaluate rfl "n"⟩

end RecordCondition
