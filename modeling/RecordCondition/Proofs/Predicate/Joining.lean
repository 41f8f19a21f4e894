import RecordCondition.Build

/-!
# What joined predicates hold of

Joining keeps runs of an operation flat and drops empty predicates.  Neither
changes what a conjunction holds of.  A disjunction is different, for the empty
predicate holds of everything and still adds nothing to it; so disjunctions are
followed through the predicates that matter, those that hold and are not empty.
-/

namespace RecordCondition.Predicate

variable {R : Type}

/-! ## One junction for both operations -/

def group : Junction → List (Predicate R) → Predicate R
  | .and => .and
  | .or => .or

/-- What a junction keeps side by side of a predicate. -/
def parts : Junction → Predicate R → List (Predicate R)
  | .and => conjuncts
  | .or => disjuncts

def join : Junction → Predicate R → Predicate R → Predicate R
  | .and => both
  | .or => either

theorem joinAll_eq_foldl (op : Junction) (predicates : List (Predicate R)) :
    joinAll op predicates = predicates.foldl (join op) .empty := by
  cases op <;> rfl

theorem eq_empty_of_isEmpty {predicate : Predicate R}
    (hempty : predicate.isEmpty = true) : predicate = .empty := by
  cases predicate with
  | empty => rfl
  | _ => simp [isEmpty] at hempty

@[simp] theorem join_empty_left (op : Junction) (right : Predicate R) :
    join op .empty right = right := by
  cases op with
  | and => exact both_empty_left right
  | or => exact either_empty_left right

@[simp] theorem join_empty_right (op : Junction) (left : Predicate R) :
    join op left .empty = left := by
  cases op with
  | and => exact both_empty_right left
  | or => exact either_empty_right left

theorem join_of_nonempty (op : Junction) {left right : Predicate R}
    (hleft : left.isEmpty = false) (hright : right.isEmpty = false) :
    join op left right = group op (parts op left ++ parts op right) := by
  cases left with
  | empty => simp [isEmpty] at hleft
  | _ =>
      cases right with
      | empty => simp [isEmpty] at hright
      | _ => cases op <;> rfl

@[simp] theorem isEmpty_group (op : Junction) (predicates : List (Predicate R)) :
    (group op predicates).isEmpty = false := by
  cases op <;> rfl

@[simp] theorem isEmpty_join (op : Junction) (left right : Predicate R) :
    (join op left right).isEmpty = (left.isEmpty && right.isEmpty) := by
  cases hleft : left.isEmpty with
  | true =>
      rw [eq_empty_of_isEmpty hleft, join_empty_left, Bool.true_and]
  | false =>
      cases hright : right.isEmpty with
      | true =>
          rw [eq_empty_of_isEmpty hright, join_empty_right, hleft, Bool.false_and]
      | false =>
          rw [join_of_nonempty op hleft hright, isEmpty_group, Bool.false_and]

@[simp] theorem parts_group (op : Junction) (predicates : List (Predicate R)) :
    parts op (group op predicates) = predicates := by
  cases op <;> rfl

theorem join_assoc (op : Junction) (first second third : Predicate R) :
    join op (join op first second) third = join op first (join op second third) := by
  cases hfirst : first.isEmpty with
  | true => rw [eq_empty_of_isEmpty hfirst, join_empty_left, join_empty_left]
  | false =>
      cases hsecond : second.isEmpty with
      | true => rw [eq_empty_of_isEmpty hsecond, join_empty_right, join_empty_left]
      | false =>
          cases hthird : third.isEmpty with
          | true => rw [eq_empty_of_isEmpty hthird, join_empty_right, join_empty_right]
          | false =>
              rw [join_of_nonempty op hfirst hsecond, join_of_nonempty op hsecond hthird,
                join_of_nonempty op (isEmpty_group op _) hthird,
                join_of_nonempty op hfirst (isEmpty_group op _), parts_group, parts_group,
                List.append_assoc]

theorem foldl_join (op : Junction) (predicates : List (Predicate R)) (start : Predicate R) :
    predicates.foldl (join op) start = join op start (joinAll op predicates) := by
  rw [joinAll_eq_foldl]
  induction predicates generalizing start with
  | nil => rw [List.foldl_nil, List.foldl_nil, join_empty_right]
  | cons predicate predicates ih =>
      rw [List.foldl_cons, List.foldl_cons, ih, ih (join op .empty predicate),
        join_empty_left, join_assoc]

theorem joinAll_append (op : Junction) (before behind : List (Predicate R)) :
    joinAll op (before ++ behind) = join op (joinAll op before) (joinAll op behind) := by
  rw [joinAll_eq_foldl, List.foldl_append, foldl_join, ← joinAll_eq_foldl]

@[simp] theorem joinAll_singleton (op : Junction) (predicate : Predicate R) :
    joinAll op [predicate] = predicate := by
  rw [joinAll_eq_foldl, List.foldl_cons, List.foldl_nil, join_empty_left]

theorem isEmpty_foldl_join (op : Junction) (predicates : List (Predicate R))
    (start : Predicate R) :
    (predicates.foldl (join op) start).isEmpty =
      (start.isEmpty && predicates.all isEmpty) := by
  induction predicates generalizing start with
  | nil => rw [List.foldl_nil, List.all_nil, Bool.and_true]
  | cons predicate predicates ih =>
      rw [List.foldl_cons, ih, isEmpty_join, List.all_cons, Bool.and_assoc]

/-! ## Conjunctions -/

theorem allHold_eq_all (record : R) (predicates : List (Predicate R)) :
    allHold record predicates = predicates.all (holds record) := by
  induction predicates with
  | nil => rw [allHold, List.all_nil]
  | cons predicate predicates ih => rw [allHold, ih, List.all_cons]

theorem all_conjuncts (record : R) (predicate : Predicate R) :
    predicate.conjuncts.all (holds record) = predicate.holds record := by
  cases predicate with
  | and predicates => rw [conjuncts, holds, allHold_eq_all]
  | _ => simp [conjuncts]

@[simp] theorem holds_both (left right : Predicate R) (record : R) :
    (both left right).holds record = (left.holds record && right.holds record) := by
  cases hleft : left.isEmpty with
  | true =>
      rw [eq_empty_of_isEmpty hleft, both_empty_left, holds, Bool.true_and]
  | false =>
      cases hright : right.isEmpty with
      | true =>
          rw [eq_empty_of_isEmpty hright, both_empty_right]
          simp [holds]
      | false =>
          have hjoin := join_of_nonempty .and hleft hright
          simp only [join, group, parts] at hjoin
          rw [hjoin, holds, allHold_eq_all, List.all_append, all_conjuncts,
            all_conjuncts]

theorem holds_foldl_both (record : R) (predicates : List (Predicate R))
    (start : Predicate R) :
    (predicates.foldl both start).holds record =
      (start.holds record && predicates.all (holds record)) := by
  induction predicates generalizing start with
  | nil => rw [List.foldl_nil, List.all_nil, Bool.and_true]
  | cons predicate predicates ih =>
      rw [List.foldl_cons, ih, holds_both, List.all_cons, Bool.and_assoc]

/-! ## Disjunctions -/

theorem anyHolds_eq_any (record : R) (predicates : List (Predicate R)) :
    anyHolds record predicates = predicates.any (holds record) := by
  induction predicates with
  | nil => rw [anyHolds, List.any_nil]
  | cons predicate predicates ih => rw [anyHolds, ih, List.any_cons]

theorem any_disjuncts (record : R) (predicate : Predicate R) :
    predicate.disjuncts.any (holds record) = predicate.holds record := by
  cases predicate with
  | or predicates => rw [disjuncts, holds, anyHolds_eq_any]
  | _ => simp [disjuncts]

theorem holds_either_of_nonempty {left right : Predicate R}
    (hleft : left.isEmpty = false) (hright : right.isEmpty = false) (record : R) :
    (either left right).holds record = (left.holds record || right.holds record) := by
  have hjoin := join_of_nonempty .or hleft hright
  simp only [join, group, parts] at hjoin
  rw [hjoin, holds, anyHolds_eq_any, List.any_append, any_disjuncts, any_disjuncts]

/-- Holds of the record without being empty. -/
def matters (record : R) (predicate : Predicate R) : Bool :=
  !predicate.isEmpty && predicate.holds record

@[simp] theorem matters_empty (record : R) :
    matters record (.empty : Predicate R) = false := rfl

theorem holds_eq_isEmpty_or_matters (predicate : Predicate R) (record : R) :
    predicate.holds record = (predicate.isEmpty || predicate.matters record) := by
  cases hempty : predicate.isEmpty with
  | true =>
      rw [eq_empty_of_isEmpty hempty]
      rfl
  | false => rw [matters, hempty, Bool.not_false, Bool.true_and, Bool.false_or]

theorem matters_either (left right : Predicate R) (record : R) :
    (either left right).matters record =
      (left.matters record || right.matters record) := by
  cases hleft : left.isEmpty with
  | true =>
      rw [eq_empty_of_isEmpty hleft, either_empty_left, matters_empty, Bool.false_or]
  | false =>
      cases hright : right.isEmpty with
      | true =>
          rw [eq_empty_of_isEmpty hright, either_empty_right, matters_empty,
            Bool.or_false]
      | false =>
          have hempty : (either left right).isEmpty = false := by
            have h := isEmpty_join .or left right
            rwa [hleft, Bool.false_and] at h
          rw [matters, matters, matters, hempty, hleft, hright,
            holds_either_of_nonempty hleft hright]
          simp only [Bool.not_false, Bool.true_and]

theorem matters_foldl_either (record : R) (predicates : List (Predicate R))
    (start : Predicate R) :
    (predicates.foldl either start).matters record =
      (start.matters record || predicates.any (matters record)) := by
  induction predicates generalizing start with
  | nil => rw [List.foldl_nil, List.any_nil, Bool.or_false]
  | cons predicate predicates ih =>
      rw [List.foldl_cons, ih, matters_either, List.any_cons, Bool.or_assoc]

/-! ## Joining many -/

theorem isEmpty_joinAll (op : Junction) (predicates : List (Predicate R)) :
    (joinAll op predicates).isEmpty = predicates.all isEmpty := by
  rw [joinAll_eq_foldl, isEmpty_foldl_join, isEmpty, Bool.true_and]

theorem holds_joinAll_and (record : R) (predicates : List (Predicate R)) :
    (joinAll .and predicates).holds record = predicates.all (holds record) := by
  rw [joinAll, holds_foldl_both, holds, Bool.true_and]

theorem holds_joinAll_or (record : R) (predicates : List (Predicate R)) :
    (joinAll .or predicates).holds record =
      (predicates.all isEmpty || predicates.any (matters record)) := by
  rw [holds_eq_isEmpty_or_matters, isEmpty_joinAll, joinAll, matters_foldl_either,
    matters_empty, Bool.false_or]

end RecordCondition.Predicate
