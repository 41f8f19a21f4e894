import RecordCondition.Proofs.Field.Bounds
import RecordCondition.Proofs.Field.Filter
import RecordCondition.Proofs.Scalar.Rereading

/-!
# Cleaned values

A field of an exact type reads what it has cleaned as the value that it was cleaned
from.  Without a pattern, which would be searched for in the text as it is written,
only the value counts, so texts that are cleaned to one are the same to every
comparison.  Containment is different, as it looks for the text itself.
-/

namespace RecordCondition

variable {R : Type}

/-- The field takes notice of values alone, not of how they are written. -/
structure TypedField.Rereads (field : TypedField R) : Prop where
  exact : field.column.type.Exact
  pattern : field.pattern = none

namespace TypedField

variable {field : TypedField R}

theorem Rereads.violation_eq (hrereads : field.Rereads) (raw other : String)
    (value : field.column.type.Value) :
    field.violation raw value = field.violation other value := by
  have hmismatch : ∀ text, field.isMismatch text = none := by
    intro text
    unfold isMismatch
    rw [hrereads.pattern]
  unfold violation
  rw [hmismatch raw, hmismatch other]

theorem Rereads.read_of_clean (hrereads : field.Rereads) {raw cleaned : String}
    (hclean : field.clean raw = .ok cleaned) :
    ∃ value, field.column.type.read raw = .ok value ∧
      field.column.type.read cleaned = .ok value ∧ field.violation raw value = none ∧
      field.column.type.display value = cleaned := by
  obtain ⟨value, hread, hviolation, hdisplay⟩ := clean_eq_ok_iff.mp hclean
  have hreread := ScalarType.read_display hrereads.exact value
  rw [hdisplay] at hreread
  exact ⟨value, hread, hreread, hviolation, hdisplay⟩

theorem Rereads.clean_cleaned (hrereads : field.Rereads) {raw cleaned : String}
    (hclean : field.clean raw = .ok cleaned) : field.clean cleaned = .ok cleaned := by
  obtain ⟨value, -, hreread, hviolation, hdisplay⟩ := hrereads.read_of_clean hclean
  rw [hrereads.violation_eq raw cleaned] at hviolation
  exact clean_eq_ok_iff.mpr ⟨value, hreread, hviolation, hdisplay⟩

/-- Texts that are cleaned to one make the same test of records. -/
theorem Rereads.exists_filter (hrereads : field.Rereads) {raw other cleaned : String}
    (hraw : field.clean raw = .ok cleaned) (hother : field.clean other = .ok cleaned)
    {lookup : Lookup} (hlookup : lookup ≠ .contains) :
    ∃ holds, (Field.typed field).filter lookup raw = .ok holds ∧
      (Field.typed field).filter lookup other = .ok holds := by
  obtain ⟨value, hread, hreread, -⟩ := hrereads.read_of_clean hraw
  obtain ⟨found, hfound, hrefound, -⟩ := hrereads.read_of_clean hother
  rw [hreread] at hrefound
  obtain rfl := Except.ok.inj hrefound
  unfold Field.filter
  rw [Column.filter_of_ne_contains field.column hlookup,
    Column.filter_of_ne_contains field.column hlookup, hread, hfound]
  exact ⟨_, rfl, rfl⟩

end TypedField

end RecordCondition
