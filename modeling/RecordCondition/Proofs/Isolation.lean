import RecordCondition.Proofs.Correspondence
import RecordCondition.Proofs.Evaluation

/-!
# A condition sees only the fields that it mentions

Whatever else is registered, a condition is validated and built from the fields
that it mentions alone.  Whatever else a record holds, the predicate answers from
what the columns of these fields show of it.  Both are one fact: a registry
corresponds to another where it has the same fields, and a field corresponds to
itself on records that its column shows alike.
-/

namespace RecordCondition

variable {R : Type} {corresponds : R → R → Prop}

theorem Field.alike_self {field : Field R}
    (hcolumn : ∀ column, field.column? = some column → ∀ record other,
      corresponds record other → column.read record = column.read other) :
    field.Alike corresponds field := by
  induction field with
  | typed field =>
      obtain ⟨⟨type, read⟩, operators, min, max, pattern⟩ := field
      exact Field.alike_typed (hcolumn _ rfl) operators min max pattern
  | bare => exact Field.alike_bare
  | «over» field ih => exact Field.alike_over (ih hcolumn)

namespace Registry

/-- The columns behind the fields that an expression mentions show the same of both
records. -/
def ShowsAlike (registry : Registry R) (e : Expr) (record other : R) : Prop :=
  ∀ mention ∈ e.mentions, ∀ field column, registry.get? mention.field = some field →
    field.column? = some column → column.read record = column.read other

variable {registry first second : Registry R}

theorem correspondAt_of_eq {name : String} (hsame : first.get? name = second.get? name)
    (hcolumn : ∀ field column, first.get? name = some field → field.column? = some column →
      ∀ record other, corresponds record other → column.read record = column.read other) :
    CorrespondAt corresponds first second name := by
  unfold CorrespondAt
  rw [← hsame]
  cases hfield : first.get? name with
  | none => exact .none
  | some field => exact .some (Field.alike_self fun column => hcolumn field column hfield)

theorem forall_pairs_of_mentions {e : Expr} {holds : String → Prop}
    (hmentions : ∀ mention ∈ e.mentions, holds mention.field) :
    ∀ pair ∈ e.pairs, holds pair.field := by
  intro pair hmem
  have hmention := hmentions pair.mention (List.mem_map.mpr ⟨pair, hmem, rfl⟩)
  rw [Comparison.mention_eq] at hmention
  exact hmention

theorem correspondAt_pairs_of_eq {e : Expr}
    (hsame : ∀ mention ∈ e.mentions, first.get? mention.field = second.get? mention.field) :
    ∀ pair ∈ e.pairs, CorrespondAt (· = ·) first second pair.field := by
  apply forall_pairs_of_mentions
  intro mention hmem
  apply correspondAt_of_eq (hsame mention hmem)
  rintro _ column - - record _ rfl
  rfl

theorem holds_eq_of_showsAlike {e : Expr} {predicate : Predicate R}
    (hbuild : registry.build e = .ok predicate) {record other : R}
    (hshows : registry.ShowsAlike e record other) :
    predicate.holds record = predicate.holds other := by
  have hpairs : ∀ pair ∈ e.pairs,
      CorrespondAt (registry.ShowsAlike e) registry registry pair.field := by
    apply forall_pairs_of_mentions
    intro mention hmem
    apply correspondAt_of_eq rfl
    intro field column hfield hcolumn one another hboth
    exact hboth mention hmem field column hfield hcolumn
  have hagrees := build_agrees hpairs
  rw [hbuild] at hagrees
  cases hagrees with
  | ok halike => exact halike.holds_eq hshows

/-- Registries with the same fields at the names that an expression mentions validate
it with the same result and build the same predicate from it, or fail alike.  The
predicate does not tell records apart that the columns of these fields show alike. -/
theorem sees_only_mentioned {e : Expr}
    (hsame : ∀ mention ∈ e.mentions, first.get? mention.field = second.get? mention.field) :
    first.validate e = second.validate e ∧ first.build e = second.build e ∧
      ∀ predicate, first.build e = .ok predicate → ∀ record other,
        first.ShowsAlike e record other → predicate.holds record = predicate.holds other := by
  have hpairs := correspondAt_pairs_of_eq hsame
  refine ⟨validate_eq_of_correspond hpairs, ?_, ?_⟩
  · exact (build_agrees hpairs).eq fun _ _ halike => halike.eq
  · intro predicate hbuild record other hshows
    exact holds_eq_of_showsAlike hbuild hshows

/-- The second registry knows nothing of notes, and the records differ in theirs.  The
text behind the last relation is the name of a field and yet no mention of it. -/
theorem sees_only_mentioned_beside_note :
    let first : Registry (String × String) := .ofList
      [("code", .typed { column := ⟨.text, fun record => .one record.1⟩, operators := .ordered }),
        ("note", .typed { column := ⟨.text, fun record => .one record.2⟩, operators := .all })]
    let second : Registry (String × String) := .ofList
      [("code", .typed { column := ⟨.text, fun record => .one record.1⟩, operators := .ordered })]
    let e : Expr := .junction .or
      [.compare (.constant (.text "m")) [.less] [.name "code"],
        .compare (.name "code") [.notEqual] [.name "note"]]
    (∀ mention ∈ e.mentions, first.get? mention.field = second.get? mention.field) ∧
      first.build e = second.build e ∧
      ∃ predicate, first.build e = .ok predicate ∧
        first.ShowsAlike e ("note", "a") ("note", "b") ∧
        predicate.holds ("note", "a") = predicate.holds ("note", "b") := by
  intro first second e
  have hmentions : ∀ mention ∈ e.mentions, mention.field = "code" := by decide
  have hsame : ∀ mention ∈ e.mentions,
      first.get? mention.field = second.get? mention.field := by
    intro mention hmem
    rw [hmentions mention hmem]
    rfl
  have hshows : first.ShowsAlike e ("note", "a") ("note", "b") := by
    intro mention hmem field column hfield hcolumn
    rw [hmentions mention hmem] at hfield
    obtain rfl := Option.some.inj hfield
    obtain rfl := Option.some.inj hcolumn
    rfl
  obtain ⟨predicate, hpredicate⟩ : ∃ predicate, first.build e = .ok predicate := ⟨_, rfl⟩
  obtain ⟨-, hbuild, hholds⟩ := sees_only_mentioned hsame
  exact ⟨hsame, hbuild, predicate, hpredicate, hshows, hholds predicate hpredicate _ _ hshows⟩

end Registry

end RecordCondition
