import RecordCondition.Condition
import RecordCondition.Proofs.Build.Tests
import RecordCondition.Proofs.Expr.Equality
import RecordCondition.Proofs.Spelling.RoundTrip
import RecordCondition.Proofs.Validation.Mentions

/-!
# What a compiled condition consists of

A text that compiles has been validated with its comparators as written and built
with those that are converse where a literal stands in front.  The fields that
permit with a comparator its converse are therefore asked nothing that they do not
permit.  A text cannot be read as a group without values, so the predicate is
never empty, and its leaves are the pairs that the text compares.
-/

namespace RecordCondition

variable {R : Type}

/-! ## From text to predicate -/

theorem Condition.parse_eq_ok {limits : Limits} {text : String} {condition : Condition}
    (hparse : Condition.parse limits text = .ok condition) :
    Expr.parse condition.text = .ok condition.expr := by
  obtain ⟨-, htext, hexpr⟩ := Condition.parse_eq_ok_iff.mp hparse
  rw [htext]
  exact hexpr

theorem Registry.compileText_eq_ok_iff {registry : Registry R} {limits : Limits}
    {text : String} {predicate : Predicate R} :
    registry.compileText limits text = .ok predicate ↔
      ∃ condition, Condition.parse limits text = .ok condition ∧
        registry.validate condition.expr = .ok () ∧
        registry.build condition.expr = .ok predicate := by
  unfold Registry.compileText
  cases hparse : Condition.parse limits text with
  | error e => simp [bind, Except.bind]
  | ok condition =>
      simp only [bind, Except.bind, Condition.compile, Condition.validate, Condition.build]
      cases hvalidate : registry.validate condition.expr with
      | error e => simp [hvalidate]
      | ok _ =>
          cases hbuild : registry.build condition.expr <;>
            simp [hvalidate, hbuild, Except.mapError]

/-! ## Parsed conditions compare something -/

def Phrase.Compares : Phrase → Prop
  | .expr _ e => e.Conforms → e.steps ≠ []
  | _ => True

theorem Spelled.phrase_compares {phrase : Phrase} {tokens : List Token}
    (hspelled : Spelled phrase tokens) : phrase.Compares := by
  induction hspelled with
  | looser _ ih => exact ih
  | group _ ih => exact ih
  | junction op _ _ ihfirst _ =>
      rintro ⟨hvalues⟩
      rw [Expr.steps_junction, List.flatMap_cons]
      exact List.append_ne_nil_of_left_ne_nil (ihfirst (hvalues _ List.mem_cons_self)) _
  | compare =>
      intro _
      simp [Expr.steps_compare, chainSteps]
  | noFollower | follower | noLink | link | noElement | someElements => trivial
  | _ => rintro ⟨⟩

/-! ## Permitted comparators -/

def ComparatorSet.ClosedUnderConverse (set : ComparatorSet) : Prop :=
  ∀ comparator, set.contains comparator = true → set.contains comparator.converse = true

theorem ComparatorSet.closedUnderConverse_of_mem {set : ComparatorSet}
    (hset : set ∈ [equality, ordered, textual, all]) : set.ClosedUnderConverse := by
  simp only [List.mem_cons, List.not_mem_nil, or_false] at hset
  intro comparator
  rcases hset with rfl | rfl | rfl | rfl <;> cases comparator <;> decide

theorem ComparatorSet.ClosedUnderConverse.contains_reorient {set : ComparatorSet}
    (hclosed : set.ClosedUnderConverse) {comparison : Comparison}
    (hcontains : set.contains comparison.comparator = true) :
    set.contains comparison.reorient.comparator = true := by
  unfold Comparison.reorient
  split
  · exact hclosed _ hcontains
  · exact hcontains

namespace Registry

variable {registry : Registry R} {limits : Limits} {text : String} {predicate : Predicate R}

/-- Where the fields that are checked permit with a comparator its converse, every
test in a compiled predicate is of a comparator that its field permits and of a
value that its field accepts, unless the field is not checked. -/
theorem tests_permitted_of_compileText
    (hclosed : ∀ name field, registry.get? name = some field → field.isIgnored = false →
      field.operators.ClosedUnderConverse)
    (hcompile : registry.compileText limits text = .ok predicate) :
    (∀ set ∈ [ComparatorSet.equality, .ordered, .textual, .all], set.ClosedUnderConverse) ∧
    ∀ leaf negated, (leaf, negated) ∈ predicate.tests →
      ∃ field, registry.get? leaf.field = some field ∧
        field.filter leaf.lookup leaf.value = .ok leaf.holds ∧
        (field.isIgnored = false →
          (∃ comparator : Comparator, comparator.lookup = leaf.lookup ∧
            comparator.negated = negated ∧ field.operators.contains comparator = true) ∧
          ∃ cleaned, field.clean leaf.value = .ok cleaned) := by
  refine ⟨fun set hset => ComparatorSet.closedUnderConverse_of_mem hset, ?_⟩
  intro leaf negated htest
  obtain ⟨condition, -, hvalidate, hbuild⟩ := compileText_eq_ok_iff.mp hcompile
  obtain ⟨comparison, hpair, hcarries⟩ := exists_pair_of_mem_tests hbuild htest
  have hmention : comparison.mention ∈ condition.expr.mentions :=
    List.mem_map.mpr ⟨comparison, hpair, rfl⟩
  have hrefusal := (refusal_eq_none_of_validate registry hvalidate).2 _ hmention
  rw [refusal_eq_none_iff, Comparison.mention_eq] at hrefusal
  obtain ⟨field, hget, hmet⟩ := hrefusal
  have hname : leaf.field = comparison.field := by
    rw [hcarries.field, Comparison.reorient_left, Comparison.field]
  have hvalue : leaf.value = comparison.value := by
    rw [hcarries.value, Comparison.reorient_right, Comparison.value]
  obtain ⟨found, hfound, hfilter⟩ := hcarries.holds
  obtain rfl : field = found := by
    rw [hname, hget] at hfound
    exact Option.some.inj hfound
  refine ⟨field, hfound, hfilter, ?_⟩
  intro hchecked
  obtain ⟨haccepted, hcontains⟩ := hmet.resolve_left (by simp [hchecked])
  refine ⟨⟨comparison.reorient.comparator, hcarries.lookup.symm, hcarries.negated.symm, ?_⟩, ?_⟩
  · exact (hclosed _ field hget hchecked).contains_reorient hcontains
  · rw [hvalue]
    exact haccepted

theorem parse_literalFirst :
    Condition.parse {} "'m' < code and note not in 'x'" =
      .ok ⟨"'m' < code and note not in 'x'", .junction .and
        [.compare (.constant (.text "m")) [.less] [.name "code"],
          .compare (.name "note") [.notIn] [.constant (.text "x")]]⟩ := by
  decide +kernel

theorem exists_compileText_literalFirst :
    let registry : Registry String := .ofList
      [("code", .typed { column := ⟨.text, Cell.one⟩, operators := .ordered }),
        ("note", .over (.typed { column := ⟨.text, Cell.one⟩, operators := .equality }))]
    ∃ predicate,
      registry.compileText {} "'m' < code and note not in 'x'" = .ok predicate := by
  intro registry
  unfold compileText
  rw [parse_literalFirst]
  exact ⟨_, rfl⟩

/-- A literal in front of a field that permits the converse, beside a field that is
not checked and would not permit what it is asked. -/
theorem tests_permitted_of_literalFirst :
    let registry : Registry String := .ofList
      [("code", .typed { column := ⟨.text, Cell.one⟩, operators := .ordered }),
        ("note", .over (.typed { column := ⟨.text, Cell.one⟩, operators := .equality }))]
    (∀ name field, registry.get? name = some field → field.isIgnored = false →
      field.operators.ClosedUnderConverse) ∧
    ∃ predicate,
      registry.compileText {} "'m' < code and note not in 'x'" = .ok predicate ∧
      ∀ leaf negated, (leaf, negated) ∈ predicate.tests →
        ∃ field, registry.get? leaf.field = some field ∧
          field.filter leaf.lookup leaf.value = .ok leaf.holds ∧
          (field.isIgnored = false →
            (∃ comparator : Comparator, comparator.lookup = leaf.lookup ∧
              comparator.negated = negated ∧ field.operators.contains comparator = true) ∧
            ∃ cleaned, field.clean leaf.value = .ok cleaned) := by
  intro registry
  have hclosed : ∀ name field, registry.get? name = some field → field.isIgnored = false →
      field.operators.ClosedUnderConverse := by
    intro name field hget hchecked
    simp only [registry, ofList, List.foldl_cons, List.foldl_nil, get?_insert,
      get?_empty] at hget
    split at hget
    · obtain rfl := Option.some.inj hget
      cases hchecked
    · split at hget
      · obtain rfl := Option.some.inj hget
        exact ComparatorSet.closedUnderConverse_of_mem (by simp [Field.operators])
      · cases hget
  obtain ⟨predicate, hpredicate⟩ := exists_compileText_literalFirst
  exact ⟨hclosed, predicate, hpredicate,
    (tests_permitted_of_compileText hclosed hpredicate).2⟩

/-- A compiled predicate is not empty and nothing in it is vacuous.  It has a leaf for
every relation that is written, and these are the pairs of the text in their order,
each with the name in front. -/
theorem leaves_of_compileText (hcompile : registry.compileText limits text = .ok predicate) :
    ∃ condition, Condition.parse limits text = .ok condition ∧ condition.expr.Conforms ∧
      predicate.Solid ∧ predicate.leaves ≠ [] ∧
      predicate.leaves.length = condition.expr.steps.length ∧
      (predicate.leaves.map fun leaf => (leaf.field, leaf.lookup, leaf.value)) =
        condition.expr.pairs.map fun pair =>
          (pair.reorient.left.display, pair.reorient.comparator.lookup,
            pair.reorient.right.display) := by
  obtain ⟨condition, hparse, hvalidate, hbuild⟩ := compileText_eq_ok_iff.mp hcompile
  have hconforms := (refusal_eq_none_of_validate registry hvalidate).1
  have hsteps : condition.expr.steps ≠ [] :=
    (Expr.spelled_of_parse (Condition.parse_eq_ok hparse)).phrase_compares hconforms
  have htests := tests_of_build hbuild
  have hlength : predicate.tests.length = condition.expr.steps.length := by
    rw [← htests.length_eq, Expr.length_pairs_of_conforms hconforms]
  have hsome : predicate.tests ≠ [] := by
    intro hnone
    rw [hnone, List.length_nil] at hlength
    exact hsteps (List.eq_nil_of_length_eq_zero hlength.symm)
  have hsolid := solid_of_build hbuild (Predicate.isEmpty_of_tests_ne_nil hsome)
  rw [Predicate.leaves_eq_map_tests]
  refine ⟨condition, hparse, hconforms, hsolid, ?_, ?_, ?_⟩
  · simp [hsome]
  · rw [List.length_map, hlength]
  · rw [List.map_map]
    exact map_eq_map_of_carriesOut htests

theorem leaves_of_literalFirst :
    let registry : Registry String := .ofList
      [("code", .typed { column := ⟨.text, Cell.one⟩, operators := .ordered }),
        ("note", .over (.typed { column := ⟨.text, Cell.one⟩, operators := .equality }))]
    ∃ predicate,
      registry.compileText {} "'m' < code and note not in 'x'" = .ok predicate ∧
      predicate.Solid ∧
      (predicate.leaves.map fun leaf => (leaf.field, leaf.lookup, leaf.value)) =
        [("code", .greater, "m"), ("note", .contains, "x")] := by
  intro registry
  obtain ⟨predicate, hpredicate⟩ := exists_compileText_literalFirst
  obtain ⟨condition, hparse, -, hsolid, -, -, hleaves⟩ := leaves_of_compileText hpredicate
  rw [parse_literalFirst] at hparse
  obtain rfl := Except.ok.inj hparse
  exact ⟨predicate, hpredicate, hsolid, hleaves⟩

end Registry

end RecordCondition
