import Mathlib.Control.Monad.Basic
import RecordCondition.Field
import RecordCondition.Proofs.Scalar.Order

/-!
# Values within bounds

A value is cleaned unless it is found below the minimum or above the maximum.  In
every type but those of binary numbers that puts it between the two.  NaN is found
neither below nor above anything, so a field with bounds cleans it all the same, and
it is the only value outside of its bounds that is cleaned.
-/

namespace RecordCondition

variable {R : Type}

namespace TypedField

variable {field : TypedField R}

theorem clean_eq_ok_iff {raw cleaned : String} :
    field.clean raw = .ok cleaned ↔
      ∃ value, field.column.type.read raw = .ok value ∧
        field.violation raw value = none ∧ field.column.type.display value = cleaned := by
  unfold clean type
  cases hread : field.column.type.read raw with
  | error e => simp
  | ok value =>
      simp only [Except.ok.injEq, exists_eq_left']
      cases hviolation : field.violation raw value with
      | some e => simp
      | none => simp

theorem isBelowMinimum_eq_none_iff {value : field.column.type.Value} :
    field.isBelowMinimum value = none ↔
      ∀ bound, field.min = some bound → field.column.type.isLess value bound = false := by
  unfold isBelowMinimum
  cases field.min with
  | none => simp
  | some bound => simp

theorem isAboveMaximum_eq_none_iff {value : field.column.type.Value} :
    field.isAboveMaximum value = none ↔
      ∀ bound, field.max = some bound → field.column.type.isGreater value bound = false := by
  unfold isAboveMaximum
  cases field.max with
  | none => simp
  | some bound => simp

/-! ## Bounds -/

/-- The value is at least the minimum and at most the maximum, where there are such. -/
structure WithinBounds (field : TypedField R) (value : field.column.type.Value) : Prop where
  min : ∀ bound, field.min = some bound → field.column.type.AtMost bound value
  max : ∀ bound, field.max = some bound → field.column.type.AtMost value bound

/-- The bounds are values that are ordered themselves. -/
structure OrdinaryBounds (field : TypedField R) : Prop where
  min : ∀ bound, field.min = some bound → field.column.type.Ordinary bound
  max : ∀ bound, field.max = some bound → field.column.type.Ordinary bound

theorem OrdinaryBounds.passes_iff (hbounds : field.OrdinaryBounds)
    (value : field.column.type.Value) :
    field.isBelowMinimum value = none ∧ field.isAboveMaximum value = none ↔
      (field.column.type.Ordinary value → field.WithinBounds value) := by
  rw [isBelowMinimum_eq_none_iff, isAboveMaximum_eq_none_iff]
  simp only [ScalarType.isLess_eq_isGreater, ScalarType.isGreater_eq_false_iff]
  constructor
  · intro hpasses hvalue
    constructor
    · intro bound hbound
      exact hpasses.1 bound hbound (hbounds.min bound hbound) hvalue
    · intro bound hbound
      exact hpasses.2 bound hbound hvalue (hbounds.max bound hbound)
  · intro hwithin
    constructor
    · intro bound hbound _ hvalue
      exact (hwithin hvalue).min bound hbound
    · intro bound hbound hvalue _
      exact (hwithin hvalue).max bound hbound

theorem withinBounds_iff_of_not_ordinary {value : field.column.type.Value}
    (hvalue : ¬ field.column.type.Ordinary value) :
    field.WithinBounds value ↔ field.min = none ∧ field.max = none := by
  constructor
  · intro hwithin
    constructor
    · cases hmin : field.min with
      | none => rfl
      | some bound => exact absurd (hwithin.min bound hmin).ordinary.2 hvalue
    · cases hmax : field.max with
      | none => rfl
      | some bound => exact absurd (hwithin.max bound hmax).ordinary.1 hvalue
  · intro hnone
    constructor
    · intro bound hbound
      rw [hnone.1] at hbound
      cases hbound
    · intro bound hbound
      rw [hnone.2] at hbound
      cases hbound

/-- A field with ordered bounds cleans a text exactly when the value that it stands for
is between them or is not ordered, and the pattern is found in the text.  A value that
is cleaned is therefore between the bounds exactly when it is ordered or there are no
bounds. -/
theorem withinBounds_iff_of_clean (hbounds : field.OrdinaryBounds) (raw : String) :
    ((∃ cleaned, field.clean raw = .ok cleaned) ↔
      ∃ value, field.column.type.read raw = .ok value ∧ field.isMismatch raw = none ∧
        (field.column.type.Ordinary value → field.WithinBounds value)) ∧
    ∀ cleaned, field.clean raw = .ok cleaned →
      ∃ value, field.column.type.read raw = .ok value ∧
        field.column.type.display value = cleaned ∧
        (field.WithinBounds value ↔
          field.column.type.Ordinary value ∨ field.min = none ∧ field.max = none) := by
  have hviolation : ∀ value : field.column.type.Value, field.violation raw value = none ↔
      field.isMismatch raw = none ∧
        (field.column.type.Ordinary value → field.WithinBounds value) := by
    intro value
    unfold violation
    rw [Option.or_eq_none_iff, Option.or_eq_none_iff, ← and_assoc,
      hbounds.passes_iff value, and_comm]
  constructor
  · simp only [clean_eq_ok_iff, hviolation]
    constructor
    · rintro ⟨cleaned, value, hread, hpasses, -⟩
      exact ⟨value, hread, hpasses⟩
    · rintro ⟨value, hread, hpasses⟩
      exact ⟨field.column.type.display value, value, hread, hpasses, rfl⟩
  · intro cleaned hclean
    obtain ⟨value, hread, hpasses, hdisplay⟩ := clean_eq_ok_iff.mp hclean
    refine ⟨value, hread, hdisplay, ?_⟩
    by_cases hvalue : field.column.type.Ordinary value
    · have hwithin := ((hviolation value).mp hpasses).2 hvalue
      exact iff_of_true hwithin (Or.inl hvalue)
    · rw [withinBounds_iff_of_not_ordinary hvalue]
      simp [hvalue]

/-- Negative zero is not below zero. -/
theorem withinBounds_of_negative_zero :
    let field : TypedField (Binary .double) :=
      { column := ⟨.binary .double, .one⟩, operators := .ordered,
        min := some (Binary.finite false 0), max := some (Binary.infinite false) }
    field.OrdinaryBounds ∧ field.clean "-0" = .ok "-0" ∧
      field.WithinBounds (Binary.finite true 0) := by
  intro field
  have hbounds : field.OrdinaryBounds := by
    constructor
    · intro bound hbound
      obtain rfl := Option.some.inj hbound
      intro hnan
      cases hnan
    · intro bound hbound
      obtain rfl := Option.some.inj hbound
      intro hnan
      cases hnan
  have hclean : field.clean "-0" = .ok "-0" := by decide
  have hbinary : Binary.read .double "-0" = .ok (Binary.finite true 0) := by decide
  have hzero : field.column.type.read "-0" = .ok (Binary.finite true 0) :=
    congrArg (Except.mapError .binary) hbinary
  obtain ⟨value, hread, -, hwithin⟩ := (withinBounds_iff_of_clean hbounds "-0").2 _ hclean
  rw [hzero] at hread
  obtain rfl := Except.ok.inj hread
  have hordinary : field.column.type.Ordinary (Binary.finite true 0) := by
    intro hnan
    cases hnan
  exact ⟨hbounds, hclean, hwithin.mpr (Or.inl hordinary)⟩

/-- NaN passes both bounds and is between no two numbers. -/
theorem not_withinBounds_of_clean_nan :
    let field : TypedField (Binary .double) :=
      { column := ⟨.binary .double, .one⟩, operators := .ordered,
        min := some (Binary.finite false 0) }
    field.OrdinaryBounds ∧ field.clean "nan" = .ok "NaN" ∧
      field.column.type.read "nan" = .ok Binary.nan ∧ ¬ field.WithinBounds Binary.nan := by
  intro field
  have hbinary : Binary.read .double "nan" = .ok Binary.nan := by decide
  refine ⟨?_, by decide, congrArg (Except.mapError .binary) hbinary, ?_⟩
  · constructor
    · intro bound hbound
      obtain rfl := Option.some.inj hbound
      intro hnan
      cases hnan
    · intro bound hbound
      cases hbound
  · intro hwithin
    exact hwithin.min _ rfl

end TypedField

end RecordCondition
