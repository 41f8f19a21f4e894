import RecordCondition.Proofs.Cell.Scalars
import RecordCondition.Proofs.Evaluation
import RecordCondition.Proofs.Scalar.Order

/-!
# Lookups carry out relations

The test that a field makes for a comparator, turned around when the comparator
is negated, is the relation that the comparator is written as.  The converse
comparator is the same relation with the operand in front.
-/

namespace RecordCondition

variable {R : Type}

theorem Column.filter_contains (column : Column R) (operand : String) :
    column.filter .contains operand = .ok fun record =>
      (column.read record).any fun value =>
        occursIn operand.toList (column.type.display value).toList := rfl

theorem Column.filter_of_ne_contains (column : Column R) {lookup : Lookup}
    (hlookup : lookup ≠ .contains) (operand : String) :
    column.filter lookup operand =
      match column.type.read operand with
      | .ok target => .ok fun record =>
          (column.read record).any fun value =>
            lookup.accepts (column.type.compare? value target)
      | .error e => .error (.value (.unreadable e)) := by
  cases lookup with
  | contains => exact absurd rfl hlookup
  | _ =>
      unfold Column.filter ScalarType.test
      cases column.type.read operand <;> rfl

theorem Field.filter_eq (field : Field R) (lookup : Lookup) (operand : String) :
    field.filter lookup operand =
      match field.column? with
      | some column => column.filter lookup operand
      | none => .error .noColumn := by
  induction field with
  | typed field => rfl
  | bare => rfl
  | «over» field ih => exact ih

theorem Column.mentions_eq (column : Column R) (record : R) (operand : String) :
    column.mentions record operand =
      (column.read record).any fun value =>
        occursIn operand.toList (column.type.display value).toList := by
  rw [Cell.any_eq_any_scalars, Column.mentions]
  congr 1
  funext value
  rw [Bool.eq_iff_iff, decide_eq_true_iff, occursIn_iff]

def Lookup.relation : Lookup → Relation
  | .exact => .equal
  | .contains => .in
  | .less => .less
  | .lessEqual => .lessEqual
  | .greater => .greater
  | .greaterEqual => .greaterEqual

theorem Lookup.accepts_eq (lookup : Lookup) (order : Option Ordering) :
    lookup.accepts order = order.any lookup.relation.accepts := by
  cases order with
  | none => cases lookup <;> rfl
  | some order => cases lookup <;> cases order <;> rfl

theorem Column.compares_of_read {column : Column R} {operand : String}
    {target : column.type.Value} (hread : column.type.read operand = .ok target)
    (record : R) (lookup : Lookup) :
    column.compares record false lookup.relation operand =
      (column.read record).any fun value =>
        lookup.accepts (column.type.compare? value target) := by
  rw [Cell.any_eq_any_scalars, Column.compares, hread]
  simp only [Lookup.accepts_eq, Bool.false_eq_true, if_false]

theorem Comparator.relates_eq (comparator : Comparator) (column : Column R) (record : R)
    (operandFirst : Bool) (operand : String) :
    column.relates record operandFirst comparator.relation operand =
      (comparator.negated ^^
        if comparator.lookup = .contains then column.mentions record operand
        else column.compares record operandFirst comparator.lookup.relation operand) := by
  cases comparator <;> simp [Comparator.relation, Comparator.negated, Comparator.lookup,
    Lookup.relation, Column.relates]

theorem Column.relates_of_filter {column : Column R} {comparator : Comparator}
    {operand : String} {holds : R → Bool}
    (hfilter : column.filter comparator.lookup operand = .ok holds) (record : R) :
    column.relates record false comparator.relation operand =
      (comparator.negated ^^ holds record) := by
  rw [Comparator.relates_eq]
  by_cases hcontains : comparator.lookup = .contains
  · rw [hcontains, Column.filter_contains] at hfilter
    obtain rfl := Except.ok.inj hfilter
    rw [if_pos hcontains, Column.mentions_eq]
  · rw [Column.filter_of_ne_contains column hcontains] at hfilter
    rw [if_neg hcontains]
    cases hread : column.type.read operand with
    | error e =>
        simp only [hread, reduceCtorEq] at hfilter
    | ok target =>
        simp only [hread] at hfilter
        obtain rfl := Except.ok.inj hfilter
        rw [Column.compares_of_read hread]

/-! ## The operand in front -/

theorem Relation.any_accepts_swap {relation other : Relation}
    (hswap : ∀ order, relation.accepts order.swap = other.accepts order)
    (order : Option Ordering) :
    (order.map Ordering.swap).any relation.accepts = order.any other.accepts := by
  cases order with
  | none => rfl
  | some order => exact hswap order

theorem Column.compares_operandFirst (column : Column R) (record : R) (operand : String)
    {relation other : Relation}
    (hswap : ∀ order, relation.accepts order.swap = other.accepts order) :
    column.compares record true relation operand =
      column.compares record false other operand := by
  unfold Column.compares
  cases column.type.read operand with
  | error e => rfl
  | ok target =>
      simp only [if_true, Bool.false_eq_true, if_false]
      congr 1
      funext value
      rw [ScalarType.compare?_swap column.type value target]
      exact Relation.any_accepts_swap hswap _

theorem Comparator.lookup_converse_eq_contains_iff (comparator : Comparator) :
    comparator.converse.lookup = .contains ↔ comparator.lookup = .contains := by
  cases comparator <;> decide

/-- A literal in front of a field means the converse behind it. -/
theorem Column.relates_operandFirst (column : Column R) (record : R)
    (comparator : Comparator) (operand : String) :
    column.relates record true comparator.relation operand =
      column.relates record false comparator.converse.relation operand := by
  have hnegated : comparator.negated = comparator.converse.negated := by
    cases comparator <;> rfl
  have hswap : ∀ order, comparator.lookup.relation.accepts (Ordering.swap order) =
      comparator.converse.lookup.relation.accepts order := by
    intro order
    cases comparator <;> cases order <;> rfl
  rw [Comparator.relates_eq, Comparator.relates_eq,
    Column.compares_operandFirst column record operand hswap, hnegated]
  simp only [comparator.lookup_converse_eq_contains_iff]

end RecordCondition
