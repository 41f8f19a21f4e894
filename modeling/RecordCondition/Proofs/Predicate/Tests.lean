import RecordCondition.Proofs.Predicate.Joining

/-!
# The tests of a predicate

The leaves of a predicate, each with whether it stands under a negation.  Joining
lays the tests of its parts one behind the other, whatever it flattens.

A predicate is solid when nothing in it is vacuous: no part is empty or joins
nothing, and only leaves are negated.  Joining keeps this.
-/

namespace RecordCondition.Predicate

variable {R : Type}

/-! ## Tests -/

mutual

def tests : Predicate R → List (Leaf R × Bool)
  | .empty => []
  | .leaf test => [(test, false)]
  | .not predicate => predicate.tests.map fun (test, _) => (test, true)
  | .and predicates | .or predicates => testsOf predicates

def testsOf : List (Predicate R) → List (Leaf R × Bool)
  | [] => []
  | predicate :: predicates => predicate.tests ++ testsOf predicates

end

mutual

theorem leaves_eq_map_tests (predicate : Predicate R) :
    predicate.leaves = predicate.tests.map Prod.fst := by
  cases predicate with
  | empty => rfl
  | leaf test => rfl
  | not predicate =>
      rw [leaves, tests, leaves_eq_map_tests predicate, List.map_map]
      rfl
  | and predicates => exact leavesOf_eq_map_testsOf predicates
  | or predicates => exact leavesOf_eq_map_testsOf predicates

theorem leavesOf_eq_map_testsOf (predicates : List (Predicate R)) :
    leavesOf predicates = (testsOf predicates).map Prod.fst := by
  cases predicates with
  | nil => rfl
  | cons predicate predicates =>
      rw [leavesOf, testsOf, List.map_append, leaves_eq_map_tests predicate,
        leavesOf_eq_map_testsOf predicates]

end

theorem testsOf_append (first second : List (Predicate R)) :
    testsOf (first ++ second) = testsOf first ++ testsOf second := by
  induction first with
  | nil => rfl
  | cons predicate predicates ih =>
      rw [List.cons_append, testsOf, testsOf, ih, List.append_assoc]

theorem tests_group (op : Junction) (predicates : List (Predicate R)) :
    (group op predicates).tests = testsOf predicates := by
  cases op <;> rfl

theorem testsOf_parts (op : Junction) (predicate : Predicate R) :
    testsOf (parts op predicate) = predicate.tests := by
  cases op <;> cases predicate <;> simp [parts, conjuncts, disjuncts, testsOf, tests]

theorem tests_join (op : Junction) (left right : Predicate R) :
    (join op left right).tests = left.tests ++ right.tests := by
  cases hleft : left.isEmpty with
  | true => simp [eq_empty_of_isEmpty hleft, tests]
  | false =>
      cases hright : right.isEmpty with
      | true => simp [eq_empty_of_isEmpty hright, tests]
      | false =>
          rw [join_of_nonempty op hleft hright, tests_group, testsOf_append, testsOf_parts,
            testsOf_parts]

theorem tests_joinAll (op : Junction) (predicates : List (Predicate R)) :
    (joinAll op predicates).tests = testsOf predicates := by
  have hfold : ∀ start : Predicate R,
      (predicates.foldl (join op) start).tests = start.tests ++ testsOf predicates := by
    induction predicates with
    | nil => simp [testsOf]
    | cons predicate predicates ih =>
        intro start
        rw [List.foldl_cons, ih, tests_join, testsOf, List.append_assoc]
  rw [joinAll_eq_foldl, hfold]
  rfl

theorem isEmpty_of_tests_ne_nil {predicate : Predicate R} (htests : predicate.tests ≠ []) :
    predicate.isEmpty = false := by
  cases predicate with
  | empty => exact absurd rfl htests
  | _ => rfl

/-! ## Solid predicates -/

inductive Solid : Predicate R → Prop
  | leaf (test : Leaf R) : Solid (.leaf test)
  | not (test : Leaf R) : Solid (.not (.leaf test))
  | and {predicates : List (Predicate R)} :
      predicates ≠ [] → (∀ predicate ∈ predicates, Solid predicate) → Solid (.and predicates)
  | or {predicates : List (Predicate R)} :
      predicates ≠ [] → (∀ predicate ∈ predicates, Solid predicate) → Solid (.or predicates)

theorem Solid.group (op : Junction) {predicates : List (Predicate R)}
    (hsome : predicates ≠ []) (hsolid : ∀ predicate ∈ predicates, predicate.Solid) :
    (group op predicates).Solid := by
  cases op with
  | and => exact .and hsome hsolid
  | or => exact .or hsome hsolid

theorem Solid.parts {predicate : Predicate R} (hsolid : predicate.Solid) (op : Junction) :
    predicate.parts op ≠ [] ∧ ∀ part ∈ predicate.parts op, part.Solid := by
  cases hsolid with
  | leaf test => cases op <;> simp [Predicate.parts, conjuncts, disjuncts, Solid.leaf test]
  | not test => cases op <;> simp [Predicate.parts, conjuncts, disjuncts, Solid.not test]
  | and hsome hall =>
      cases op with
      | and => exact ⟨hsome, hall⟩
      | or => simp [Predicate.parts, disjuncts, Solid.and hsome hall]
  | or hsome hall =>
      cases op with
      | and => simp [Predicate.parts, conjuncts, Solid.or hsome hall]
      | or => exact ⟨hsome, hall⟩

theorem Solid.isEmpty_eq {predicate : Predicate R} (hsolid : predicate.Solid) :
    predicate.isEmpty = false := by
  cases hsolid <;> rfl

theorem Solid.join (op : Junction) {left right : Predicate R} (hleft : left.Solid)
    (hright : right.Solid) : (join op left right).Solid := by
  rw [join_of_nonempty op hleft.isEmpty_eq hright.isEmpty_eq]
  apply Solid.group
  · simp [(hleft.parts op).1]
  · exact List.forall_mem_append.mpr ⟨(hleft.parts op).2, (hright.parts op).2⟩

/-- Whatever is joined of solid and of empty predicates is one or the other. -/
theorem solid_joinAll (op : Junction) {predicates : List (Predicate R)}
    (hsolid : ∀ predicate ∈ predicates, predicate.isEmpty = false → predicate.Solid)
    (hsome : (joinAll op predicates).isEmpty = false) : (joinAll op predicates).Solid := by
  have hfold : ∀ start : Predicate R, (start.isEmpty = false → start.Solid) →
      (predicates.foldl (join op) start).isEmpty = false →
      (predicates.foldl (join op) start).Solid := by
    clear hsome
    induction predicates with
    | nil => exact fun start hstart => hstart
    | cons predicate predicates ih =>
        rw [List.forall_mem_cons] at hsolid
        intro start hstart
        apply ih hsolid.2
        intro hjoin
        cases hempty : start.isEmpty with
        | true =>
            rw [eq_empty_of_isEmpty hempty, join_empty_left] at hjoin ⊢
            exact hsolid.1 hjoin
        | false =>
            cases hnext : predicate.isEmpty with
            | true =>
                rw [eq_empty_of_isEmpty hnext, join_empty_right]
                exact hstart hempty
            | false => exact (hstart hempty).join op (hsolid.1 hnext)
  rw [joinAll_eq_foldl] at hsome ⊢
  exact hfold .empty (by simp [isEmpty]) hsome

end RecordCondition.Predicate
