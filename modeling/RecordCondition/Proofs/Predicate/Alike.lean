import Mathlib.Data.List.Forall2
import RecordCondition.Proofs.Predicate.Joining

/-!
# Predicates that answer alike

Two predicates of one form, over records of any two kinds: the same leaves are
joined in the same way, and leaves in the same place give the same answer on
records that correspond.  Joining keeps this, and so the predicates as wholes are
written alike and answer alike.
-/

namespace RecordCondition

variable {R S : Type} {corresponds : R → S → Prop}

structure Leaf.Alike (corresponds : R → S → Prop) (first : Leaf R) (second : Leaf S) :
    Prop where
  field : first.field = second.field
  lookup : first.lookup = second.lookup
  value : first.value = second.value
  holds : ∀ record other, corresponds record other → first.holds record = second.holds other

theorem Leaf.Alike.display_eq {first : Leaf R} {second : Leaf S}
    (halike : first.Alike corresponds second) : first.display = second.display := by
  rw [Leaf.display, Leaf.display, halike.field, halike.lookup, halike.value]

theorem Leaf.Alike.eq {first second : Leaf R} (halike : first.Alike (· = ·) second) :
    first = second := by
  obtain ⟨field, lookup, value, holds⟩ := first
  obtain ⟨otherField, otherLookup, otherValue, otherHolds⟩ := second
  obtain ⟨rfl, rfl, rfl, hholds⟩ := halike
  have heq : holds = otherHolds := funext fun record => hholds record record rfl
  rw [heq]

namespace Predicate

inductive Alike (corresponds : R → S → Prop) : Predicate R → Predicate S → Prop
  | empty : Alike corresponds .empty .empty
  | leaf {first : Leaf R} {second : Leaf S} :
      first.Alike corresponds second → Alike corresponds (.leaf first) (.leaf second)
  | not {first : Predicate R} {second : Predicate S} :
      Alike corresponds first second → Alike corresponds (.not first) (.not second)
  | and {firsts : List (Predicate R)} {seconds : List (Predicate S)} :
      List.Forall₂ (Alike corresponds) firsts seconds →
      Alike corresponds (.and firsts) (.and seconds)
  | or {firsts : List (Predicate R)} {seconds : List (Predicate S)} :
      List.Forall₂ (Alike corresponds) firsts seconds →
      Alike corresponds (.or firsts) (.or seconds)

/-! ## Joining -/

theorem Alike.isEmpty_eq {first : Predicate R} {second : Predicate S}
    (halike : Alike corresponds first second) : first.isEmpty = second.isEmpty := by
  cases halike <;> rfl

theorem Alike.parts {first : Predicate R} {second : Predicate S}
    (halike : Alike corresponds first second) (op : Junction) :
    List.Forall₂ (Alike corresponds) (parts op first) (parts op second) := by
  have hwhole : List.Forall₂ (Alike corresponds) [first] [second] := .cons halike .nil
  cases halike with
  | and hparts =>
      cases op with
      | and => exact hparts
      | or => exact hwhole
  | or hparts =>
      cases op with
      | and => exact hwhole
      | or => exact hparts
  | _ => cases op <;> exact hwhole

theorem Alike.group {firsts : List (Predicate R)} {seconds : List (Predicate S)}
    (halike : List.Forall₂ (Alike corresponds) firsts seconds) (op : Junction) :
    Alike corresponds (group op firsts) (group op seconds) := by
  cases op with
  | and => exact .and halike
  | or => exact .or halike

theorem Alike.join {left right : Predicate R} {other next : Predicate S}
    (hleft : Alike corresponds left other) (hright : Alike corresponds right next)
    (op : Junction) : Alike corresponds (join op left right) (join op other next) := by
  have hleftEmpty := hleft.isEmpty_eq
  have hrightEmpty := hright.isEmpty_eq
  cases hempty : left.isEmpty with
  | true =>
      rw [hempty] at hleftEmpty
      rw [eq_empty_of_isEmpty hempty, eq_empty_of_isEmpty hleftEmpty.symm, join_empty_left,
        join_empty_left]
      exact hright
  | false =>
      rw [hempty] at hleftEmpty
      cases hnone : right.isEmpty with
      | true =>
          rw [hnone] at hrightEmpty
          rw [eq_empty_of_isEmpty hnone, eq_empty_of_isEmpty hrightEmpty.symm,
            join_empty_right, join_empty_right]
          exact hleft
      | false =>
          rw [hnone] at hrightEmpty
          rw [join_of_nonempty op hempty hnone,
            join_of_nonempty op hleftEmpty.symm hrightEmpty.symm]
          exact Alike.group (List.rel_append (hleft.parts op) (hright.parts op)) op

theorem Alike.joinAll {firsts : List (Predicate R)} {seconds : List (Predicate S)}
    (halike : List.Forall₂ (Alike corresponds) firsts seconds) (op : Junction) :
    Alike corresponds (joinAll op firsts) (joinAll op seconds) := by
  have hfold : ∀ start other, Alike corresponds start other →
      Alike corresponds (firsts.foldl (Predicate.join op) start)
        (seconds.foldl (Predicate.join op) other) := by
    induction halike with
    | nil => exact fun _ _ hstart => hstart
    | cons hfirst _ ih => exact fun _ _ hstart => ih _ _ (hstart.join hfirst op)
  rw [joinAll_eq_foldl, joinAll_eq_foldl]
  exact hfold .empty .empty .empty

/-! ## Answers and text -/

mutual

theorem Alike.holds_eq {first : Predicate R} {second : Predicate S}
    (halike : Alike corresponds first second) {record : R} {other : S}
    (hrecord : corresponds record other) : first.holds record = second.holds other := by
  cases halike with
  | empty => rfl
  | leaf htest => exact htest.holds record other hrecord
  | not hinner => rw [holds, holds, hinner.holds_eq hrecord]
  | and hparts =>
      rw [holds, holds]
      exact (answers_of_alike hparts hrecord).1
  | or hparts =>
      rw [holds, holds]
      exact (answers_of_alike hparts hrecord).2

theorem answers_of_alike {firsts : List (Predicate R)} {seconds : List (Predicate S)}
    (halike : List.Forall₂ (Alike corresponds) firsts seconds) {record : R} {other : S}
    (hrecord : corresponds record other) :
    allHold record firsts = allHold other seconds ∧
      anyHolds record firsts = anyHolds other seconds := by
  cases halike with
  | nil => exact ⟨rfl, rfl⟩
  | cons hfirst hrest =>
      have hrest := answers_of_alike hrest hrecord
      rw [allHold, allHold, anyHolds, anyHolds, hfirst.holds_eq hrecord, hrest.1, hrest.2]
      exact ⟨rfl, rfl⟩

end

mutual

theorem Alike.display_eq {first : Predicate R} {second : Predicate S}
    (halike : Alike corresponds first second) : first.display = second.display := by
  cases halike with
  | empty => rfl
  | leaf htest => exact htest.display_eq
  | not hinner =>
      have hdisplay := hinner.display_eq
      cases hinner with
      | leaf htest => rw [display, display, htest.display_eq]
      | _ => exact congrArg ("NOT " ++ ·) hdisplay
  | and hparts => rw [display, display, displays_eq_of_alike hparts]
  | or hparts => rw [display, display, displays_eq_of_alike hparts]

theorem displays_eq_of_alike {firsts : List (Predicate R)} {seconds : List (Predicate S)}
    (halike : List.Forall₂ (Alike corresponds) firsts seconds) :
    displays firsts = displays seconds := by
  cases halike with
  | nil => rfl
  | cons hfirst hrest =>
      rw [displays, displays, hfirst.display_eq, displays_eq_of_alike hrest]

end

/-! ## The same records -/

mutual

theorem Alike.eq {first second : Predicate R} (halike : Alike (· = ·) first second) :
    first = second := by
  cases halike with
  | empty => rfl
  | leaf htest => rw [htest.eq]
  | not hinner => rw [hinner.eq]
  | and hparts => rw [eq_of_alike hparts]
  | or hparts => rw [eq_of_alike hparts]

theorem eq_of_alike {firsts seconds : List (Predicate R)}
    (halike : List.Forall₂ (Alike (· = ·)) firsts seconds) : firsts = seconds := by
  cases halike with
  | nil => rfl
  | cons hfirst hrest => rw [hfirst.eq, eq_of_alike hrest]

end

end Predicate

end RecordCondition
