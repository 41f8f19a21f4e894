import RecordCondition.Proofs.Predicate.Tests

/-!
# The algebra of predicates

Joining is associative for predicates of any form, and the empty predicate is
neutral on both sides.  Leaves are kept in their order.  What a joined or negated
predicate holds of is told from its parts, as long as a disjunction joins nothing
empty and nothing empty is negated.

Predicates that are made from leaves by joining and negating alone are reduced:
every group in them has two members or more and is of another kind than its
members, and no negation is negated.
-/

namespace RecordCondition.Predicate

variable {R : Type}

/-! ## Leaves and meaning -/

theorem leaves_join (op : Junction) (left right : Predicate R) :
    (join op left right).leaves = left.leaves ++ right.leaves := by
  simp only [leaves_eq_map_tests, tests_join, List.map_append]

theorem leaves_negate (predicate : Predicate R) :
    predicate.negate.leaves = predicate.leaves := by
  cases predicate <;> simp [negate, leaves]

theorem holds_negate {predicate : Predicate R} (hsome : predicate.isEmpty = false)
    (record : R) : predicate.negate.holds record = !predicate.holds record := by
  cases predicate with
  | empty => simp [isEmpty] at hsome
  | _ => simp [negate, holds]

/-! ## Reduced predicates -/

/-- Nothing is empty, no group directly contains one of its own kind or has less than
two members, and no negation is directly negated. -/
inductive Reduced : Predicate R → Prop
  | leaf (test : Leaf R) : Reduced (.leaf test)
  | not {predicate : Predicate R} :
      Reduced predicate → (∀ inner, predicate ≠ .not inner) → Reduced (.not predicate)
  | and {predicates : List (Predicate R)} :
      2 ≤ predicates.length → (∀ predicate ∈ predicates, Reduced predicate) →
      (∀ inner, .and inner ∉ predicates) → Reduced (.and predicates)
  | or {predicates : List (Predicate R)} :
      2 ≤ predicates.length → (∀ predicate ∈ predicates, Reduced predicate) →
      (∀ inner, .or inner ∉ predicates) → Reduced (.or predicates)

theorem Reduced.isEmpty_eq {predicate : Predicate R} (hreduced : predicate.Reduced) :
    predicate.isEmpty = false := by
  cases hreduced <;> rfl

theorem Reduced.group (op : Junction) {predicates : List (Predicate R)}
    (hlength : 2 ≤ predicates.length)
    (hreduced : ∀ predicate ∈ predicates, predicate.Reduced)
    (hother : ∀ inner, group op inner ∉ predicates) : (group op predicates).Reduced := by
  cases op with
  | and => exact .and hlength hreduced hother
  | or => exact .or hlength hreduced hother

/-- What a junction keeps side by side, whether or not the predicate is a group of the
same kind. -/
theorem Reduced.parts {predicate : Predicate R} (hreduced : predicate.Reduced)
    (op : Junction) :
    1 ≤ (predicate.parts op).length ∧ (∀ part ∈ predicate.parts op, part.Reduced) ∧
      ∀ inner, Predicate.group op inner ∉ predicate.parts op := by
  have hwhole : (∀ inner, Predicate.group op inner ≠ predicate) →
      1 ≤ [predicate].length ∧ (∀ part ∈ [predicate], part.Reduced) ∧
        ∀ inner, Predicate.group op inner ∉ [predicate] := by
    intro hother
    simpa using ⟨hreduced, hother⟩
  cases hreduced with
  | leaf test => cases op <;> exact hwhole (by simp [Predicate.group])
  | not _ _ => cases op <;> exact hwhole (by simp [Predicate.group])
  | and hlength hall hother =>
      cases op with
      | and => exact ⟨by simp only [Predicate.parts, conjuncts]; omega, hall, hother⟩
      | or => exact hwhole (by simp [Predicate.group])
  | or hlength hall hother =>
      cases op with
      | and => exact hwhole (by simp [Predicate.group])
      | or => exact ⟨by simp only [Predicate.parts, disjuncts]; omega, hall, hother⟩

theorem Reduced.join (op : Junction) {left right : Predicate R} (hleft : left.Reduced)
    (hright : right.Reduced) : (join op left right).Reduced := by
  obtain ⟨hleftLength, hleftParts, hleftOther⟩ := hleft.parts op
  obtain ⟨hrightLength, hrightParts, hrightOther⟩ := hright.parts op
  rw [join_of_nonempty op hleft.isEmpty_eq hright.isEmpty_eq]
  apply Reduced.group
  · rw [List.length_append]
    omega
  · exact List.forall_mem_append.mpr ⟨hleftParts, hrightParts⟩
  · intro inner hmem
    rcases List.mem_append.mp hmem with hmem | hmem
    · exact hleftOther inner hmem
    · exact hrightOther inner hmem

theorem Reduced.negate {predicate : Predicate R} (hreduced : predicate.Reduced) :
    predicate.negate.Reduced := by
  cases hreduced with
  | leaf test => exact .not (.leaf test) (by simp)
  | not hinner _ => exact hinner
  | and hlength hall hother => exact .not (.and hlength hall hother) (by simp)
  | or hlength hall hother => exact .not (.or hlength hall hother) (by simp)

/-- What can be made of the empty predicate and of leaves by joining and negating. -/
inductive Composed : Predicate R → Prop
  | empty : Composed .empty
  | leaf (test : Leaf R) : Composed (.leaf test)
  | both {left right : Predicate R} :
      Composed left → Composed right → Composed (both left right)
  | either {left right : Predicate R} :
      Composed left → Composed right → Composed (either left right)
  | negate {predicate : Predicate R} : Composed predicate → Composed predicate.negate

/-- One join keeps predicates that are empty or reduced. -/
theorem eq_empty_or_reduced_join (op : Junction) {left right : Predicate R}
    (hleft : left = .empty ∨ left.Reduced) (hright : right = .empty ∨ right.Reduced) :
    join op left right = .empty ∨ (join op left right).Reduced := by
  rcases hleft with rfl | hleft
  · rw [join_empty_left]
    exact hright
  · rcases hright with rfl | hright
    · rw [join_empty_right]
      exact Or.inr hleft
    · exact Or.inr (hleft.join op hright)

theorem Composed.eq_empty_or_reduced {predicate : Predicate R}
    (hcomposed : predicate.Composed) : predicate = .empty ∨ predicate.Reduced := by
  induction hcomposed with
  | empty => exact Or.inl rfl
  | leaf test => exact Or.inr (.leaf test)
  | both _ _ ihleft ihright => exact eq_empty_or_reduced_join .and ihleft ihright
  | either _ _ ihleft ihright => exact eq_empty_or_reduced_join .or ihleft ihright
  | negate _ ih =>
      rcases ih with rfl | hreduced
      · exact Or.inl rfl
      · exact Or.inr hreduced.negate

/-- The laws of joining and negating, for predicates of any form, and the form of those
that are made in this way alone. -/
theorem combining_laws :
    (∀ first second third : Predicate R,
      both (both first second) third = both first (both second third) ∧
      either (either first second) third = either first (either second third)) ∧
    (∀ predicate : Predicate R,
      both .empty predicate = predicate ∧ both predicate .empty = predicate ∧
      either .empty predicate = predicate ∧ either predicate .empty = predicate) ∧
    (∀ left right : Predicate R,
      (both left right).leaves = left.leaves ++ right.leaves ∧
      (either left right).leaves = left.leaves ++ right.leaves ∧
      left.negate.leaves = left.leaves) ∧
    (∀ (left right : Predicate R) (record : R),
      (both left right).holds record = (left.holds record && right.holds record) ∧
      (left ≠ .empty → right ≠ .empty →
        (either left right).holds record = (left.holds record || right.holds record)) ∧
      (left ≠ .empty → left.negate.holds record = !left.holds record)) ∧
    (∀ predicate : Predicate R, predicate.Composed →
      predicate = .empty ∨ predicate.Reduced) := by
  have hsome : ∀ {predicate : Predicate R}, predicate ≠ .empty → predicate.isEmpty = false := by
    intro predicate hne
    rw [← Bool.not_eq_true]
    exact fun hempty => hne (eq_empty_of_isEmpty hempty)
  refine ⟨?associative, ?neutral, ?leaves, ?holds, ?composed⟩
  case associative =>
    intro first second third
    exact ⟨join_assoc .and first second third, join_assoc .or first second third⟩
  case neutral => simp
  case leaves =>
    intro left right
    exact ⟨leaves_join .and left right, leaves_join .or left right, leaves_negate left⟩
  case holds =>
    intro left right record
    refine ⟨holds_both left right record, ?_, ?_⟩
    · intro hleft hright
      exact holds_either_of_nonempty (hsome hleft) (hsome hright) record
    · intro hleft
      exact holds_negate (hsome hleft) record
  case composed =>
    intro predicate hcomposed
    exact hcomposed.eq_empty_or_reduced

/-- Groups without members are no empty predicates: the conjunction of none holds of
everything, the disjunction of none of nothing. -/
theorem combining_laws_memberless :
    let all : Predicate Nat := .and []
    let any : Predicate Nat := .or []
    let test : Leaf Nat := ⟨"n", .exact, "1", fun n => n == 1⟩
    all ≠ .empty ∧ any ≠ .empty ∧
      (∀ n, (either all any).holds n = (all.holds n || any.holds n)) ∧
      (∀ n, any.negate.holds n = !any.holds n) ∧
      (either (.leaf test) (.leaf test)).Composed ∧
      (either (.leaf test) (.leaf test)).Reduced := by
  intro all any test
  have hall : all ≠ .empty := by simp [all]
  have hany : any ≠ .empty := by simp [any]
  have hcomposed : (either (.leaf test) (.leaf test)).Composed :=
    .either (.leaf test) (.leaf test)
  obtain ⟨-, -, -, hholds, hreduced⟩ := combining_laws (R := Nat)
  refine ⟨hall, hany, fun n => (hholds all any n).2.1 hall hany,
    fun n => (hholds any all n).2.2 hany, hcomposed, ?_⟩
  exact (hreduced _ hcomposed).resolve_left (by simp [either])

end RecordCondition.Predicate
