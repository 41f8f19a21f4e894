import RecordCondition.Scalar
import Mathlib.Data.String.Basic

/-!
# The order of scalar values

Exchanging two values exchanges their order, in every type.  This is what lets a
literal change sides under the converse comparator.

A comparison that does not come out as greater says that one value is at most the
other, provided that it comes out at all.  NaN is the one value that is ordered with
nothing, so of NaN neither this nor the contrary can be said.
-/

namespace RecordCondition

theorem Binary.compare?_swap {format : BinaryFormat} (left right : Binary format) :
    Binary.compare? right left = (Binary.compare? left right).map Ordering.swap := by
  unfold Binary.compare?
  cases left.place with
  | none =>
      cases right.place <;> rfl
  | some leftPlace =>
      cases right.place with
      | none => rfl
      | some rightPlace =>
          have hfirst : compare rightPlace.1 leftPlace.1 =
              (compare leftPlace.1 rightPlace.1).swap := Std.OrientedCmp.eq_swap
          have hsecond : compare rightPlace.2 leftPlace.2 =
              (compare leftPlace.2 rightPlace.2).swap := Std.OrientedCmp.eq_swap
          simp only [Option.map_some, Ordering.swap_then]
          rw [hfirst, hsecond]

theorem Instant.compare_swap (left right : Instant) :
    Instant.compare right left = (Instant.compare left right).swap := by
  have hseconds : Ord.compare right.seconds left.seconds =
      (Ord.compare left.seconds right.seconds).swap := Std.OrientedCmp.eq_swap
  have hnanoseconds : Ord.compare right.nanoseconds left.nanoseconds =
      (Ord.compare left.nanoseconds right.nanoseconds).swap := Std.OrientedCmp.eq_swap
  unfold Instant.compare
  rw [Ordering.swap_then, hseconds, hnanoseconds]

theorem ScalarType.compare?_swap (type : ScalarType) (left right : type.Value) :
    type.compare? right left = (type.compare? left right).map Ordering.swap := by
  cases type with
  | integer type =>
      have hswap : compare right.1 left.1 = (compare left.1 right.1).swap :=
        Std.OrientedCmp.eq_swap
      exact congrArg some hswap
  | binary format => exact Binary.compare?_swap left right
  | truth =>
      have hswap : @compare Bool _ right left = (@compare Bool _ left right).swap :=
        Std.OrientedCmp.eq_swap (α := Bool)
      exact congrArg some hswap
  | text =>
      have hswap : @compare String _ right left = (@compare String _ left right).swap :=
        Std.OrientedCmp.eq_swap (α := String)
      exact congrArg some hswap
  | utc => exact congrArg some (Instant.compare_swap left right)
  | fixed => exact congrArg some (Instant.compare_swap left right)

/-! ## At most -/

/-- The order of the extended line. -/
def Binary.AtMost {format : BinaryFormat} : Binary format → Binary format → Prop
  | .nan, _ | _, .nan => False
  | .infinite true, _ | _, .infinite false => True
  | .finite negative units, .finite other more => signed negative units ≤ signed other more
  | _, _ => False

def Instant.AtMost (left right : Instant) : Prop :=
  left.seconds < right.seconds ∨
    left.seconds = right.seconds ∧ left.nanoseconds ≤ right.nanoseconds

namespace ScalarType

/-- The values that are ordered with the others of their type. -/
def Ordinary : (type : ScalarType) → type.Value → Prop
  | .binary _, value => value ≠ Binary.nan
  | _, _ => True

def AtMost : (type : ScalarType) → type.Value → type.Value → Prop
  | .integer _, left, right => left.1 ≤ right.1
  | .binary _, left, right => Binary.AtMost left right
  | .truth, left, right => left = true → right = true
  | .text, left, right => @LE.le String _ left right
  | .utc, left, right => Instant.AtMost left right
  | .fixed, left, right => Instant.AtMost left right

end ScalarType

theorem Binary.atMost_iff {format : BinaryFormat} (left right : Binary format) :
    left.AtMost right ↔ ∃ order, compare? left right = some order ∧ order ≠ .gt := by
  match left, right with
  | .nan, right => simp [AtMost]
  | .infinite negative, .nan => cases negative <;> simp [AtMost]
  | .finite negative units, .nan => simp [AtMost]
  | .infinite negative, .infinite other =>
      cases negative <;> cases other <;> simp [AtMost, compare?, place] <;> decide
  | .infinite negative, .finite other more =>
      have hbelow : compare (-1 : Int) 0 = .lt := rfl
      have habove : compare (1 : Int) 0 = .gt := rfl
      cases negative <;> simp [AtMost, compare?, place, hbelow, habove]
  | .finite negative units, .infinite other =>
      have hbelow : compare (0 : Int) 1 = .lt := rfl
      have habove : compare (0 : Int) (-1) = .gt := rfl
      cases other <;> simp [AtMost, compare?, place, hbelow, habove]
  | .finite negative units, .finite other more =>
      have horder := Int.compare_ne_gt (a := signed negative units) (b := signed other more)
      simp [AtMost, compare?, place, horder]

theorem Instant.atMost_iff (left right : Instant) :
    left.AtMost right ↔ Instant.compare left right ≠ .gt := by
  unfold AtMost compare
  rw [Ne, Ordering.then_eq_gt, Int.compare_eq_gt, Int.compare_eq_eq, Nat.compare_eq_gt]
  omega

theorem compare_string_ne_gt_iff (left right : String) :
    compare left right ≠ .gt ↔ left ≤ right := by
  change compareOfLessAndEq left right ≠ .gt ↔ left ≤ right
  unfold compareOfLessAndEq
  rw [le_iff_lt_or_eq]
  by_cases hlt : left < right
  · simp [hlt]
  · by_cases heq : left = right
    · simp [heq]
    · simp [hlt, heq]

theorem compare_bool_ne_gt_iff (left right : Bool) :
    compare left right ≠ .gt ↔ (left = true → right = true) := by
  cases left <;> cases right <;> decide

theorem Binary.place_eq_none_iff {format : BinaryFormat} (value : Binary format) :
    value.place = none ↔ value = .nan := by
  match value with
  | .nan => simp [place]
  | .infinite negative => cases negative <;> simp [place]
  | .finite negative units => simp [place]

theorem Binary.compare?_eq_none_iff {format : BinaryFormat} (left right : Binary format) :
    compare? left right = none ↔ left = .nan ∨ right = .nan := by
  rw [← place_eq_none_iff, ← place_eq_none_iff]
  unfold compare?
  cases left.place <;> cases right.place <;> simp

private theorem exists_order_iff (found : Ordering) :
    (∃ order, some found = some order ∧ order ≠ .gt) ↔ found ≠ .gt := by
  simp

namespace ScalarType

variable {type : ScalarType}

theorem atMost_iff (left right : type.Value) :
    type.AtMost left right ↔
      ∃ order, type.compare? left right = some order ∧ order ≠ .gt := by
  cases type with
  | integer type => exact Int.compare_ne_gt.symm.trans (exists_order_iff _).symm
  | binary format => exact Binary.atMost_iff left right
  | truth => exact (compare_bool_ne_gt_iff left right).symm.trans (exists_order_iff _).symm
  | text => exact (compare_string_ne_gt_iff left right).symm.trans (exists_order_iff _).symm
  | utc => exact (Instant.atMost_iff left right).trans (exists_order_iff _).symm
  | fixed => exact (Instant.atMost_iff left right).trans (exists_order_iff _).symm

theorem compare?_eq_none_iff (left right : type.Value) :
    type.compare? left right = none ↔ ¬ (type.Ordinary left ∧ type.Ordinary right) := by
  cases type with
  | binary format =>
      rw [not_and_or]
      exact (Binary.compare?_eq_none_iff left right).trans
        (or_congr not_not.symm not_not.symm)
  | _ => simp [compare?, Ordinary]

theorem AtMost.ordinary {left right : type.Value} (hatMost : type.AtMost left right) :
    type.Ordinary left ∧ type.Ordinary right := by
  obtain ⟨order, horder, -⟩ := (atMost_iff left right).mp hatMost
  by_contra hnone
  rw [(compare?_eq_none_iff left right).mpr hnone] at horder
  cases horder

/-- What is not greater is at most, provided that both are ordered at all. -/
theorem isGreater_eq_false_iff {left right : type.Value} :
    type.isGreater left right = false ↔
      (type.Ordinary left → type.Ordinary right → type.AtMost left right) := by
  unfold isGreater
  rw [atMost_iff]
  cases hcompare : type.compare? left right with
  | none =>
      have hnone := (compare?_eq_none_iff left right).mp hcompare
      simpa using hnone
  | some order =>
      have hboth : type.Ordinary left ∧ type.Ordinary right := by
        by_contra hnone
        rw [(compare?_eq_none_iff left right).mpr hnone] at hcompare
        cases hcompare
      cases order <;> simp [hboth.1, hboth.2]

theorem isLess_eq_isGreater (left right : type.Value) :
    type.isLess left right = type.isGreater right left := by
  unfold isLess isGreater
  rw [compare?_swap type left right]
  cases type.compare? left right with
  | none => rfl
  | some order => cases order <;> rfl

end ScalarType

end RecordCondition
