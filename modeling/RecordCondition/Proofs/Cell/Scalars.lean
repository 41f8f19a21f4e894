import RecordCondition.Cell

/-!
# The values of a cell

An operator that says no where there is nothing holds of a cell when it holds of one of
the values in it, however deep optional places and lists are nested around them.
-/

namespace RecordCondition.Cell

variable {α : Type}

mutual

theorem apply_eq_any_scalars {operator : Operator α} (habsent : operator.ofAbsent = false)
    (hempty : operator.ofEmptyList = false) (cell : Cell α) :
    cell.apply operator = cell.scalars.any operator.holds := by
  cases cell with
  | one value => simp [apply, scalars]
  | absent => simp [apply, scalars, habsent]
  | present cell =>
      rw [apply, scalars]
      exact apply_eq_any_scalars habsent hempty cell
  | many cells =>
      cases cells with
      | nil => simp [apply, scalars, scalarsOf, hempty]
      | cons cell cells =>
          rw [apply, scalars, scalarsOf, List.any_append,
            apply_eq_any_scalars habsent hempty cell,
            applyAny_eq_any_scalars habsent hempty cells]

theorem applyAny_eq_any_scalars {operator : Operator α} (habsent : operator.ofAbsent = false)
    (hempty : operator.ofEmptyList = false) (cells : List (Cell α)) :
    applyAny operator cells = (scalarsOf cells).any operator.holds := by
  cases cells with
  | nil => simp [applyAny, scalarsOf]
  | cons cell cells =>
      rw [applyAny, scalarsOf, List.any_append, apply_eq_any_scalars habsent hempty cell,
        applyAny_eq_any_scalars habsent hempty cells]

end

theorem any_eq_any_scalars (holds : α → Bool) (cell : Cell α) :
    cell.any holds = cell.scalars.any holds :=
  apply_eq_any_scalars rfl rfl cell

/-! ## Cells with and without values -/

/-- The value stands somewhere in the cell. -/
inductive Contains (value : α) : Cell α → Prop
  | one : Contains value (.one value)
  | present {cell : Cell α} : Contains value cell → Contains value (.present cell)
  | many {cell : Cell α} {cells : List (Cell α)} :
      cell ∈ cells → Contains value cell → Contains value (.many cells)

/-- Nothing but empty places and lists of such cells. -/
inductive Vacant : Cell α → Prop
  | absent : Vacant .absent
  | present {cell : Cell α} : Vacant cell → Vacant (.present cell)
  | many {cells : List (Cell α)} : (∀ cell ∈ cells, Vacant cell) → Vacant (.many cells)

mutual

theorem mem_scalars_iff {value : α} {cell : Cell α} :
    value ∈ cell.scalars ↔ cell.Contains value := by
  cases cell with
  | one other =>
      rw [scalars, List.mem_singleton]
      constructor
      · rintro rfl
        exact .one
      · rintro ⟨⟩
        rfl
  | absent =>
      rw [scalars]
      exact ⟨fun hmem => absurd hmem List.not_mem_nil, nofun⟩
  | present cell =>
      rw [scalars, mem_scalars_iff]
      constructor
      · exact .present
      · rintro ⟨⟩
        assumption
  | many cells =>
      rw [scalars, mem_scalarsOf_iff]
      constructor
      · rintro ⟨cell, hmem, hcontains⟩
        exact .many hmem hcontains
      · rintro ⟨⟩
        exact ⟨_, ‹_›, ‹_›⟩

theorem mem_scalarsOf_iff {value : α} {cells : List (Cell α)} :
    value ∈ scalarsOf cells ↔ ∃ cell ∈ cells, cell.Contains value := by
  cases cells with
  | nil => simp [scalarsOf]
  | cons cell cells =>
      rw [scalarsOf, List.mem_append, mem_scalars_iff, mem_scalarsOf_iff]
      simp only [List.mem_cons, exists_eq_or_imp]

end

theorem not_contains_of_vacant {cell : Cell α} (hvacant : cell.Vacant) (value : α) :
    ¬ cell.Contains value := by
  intro hcontains
  induction hcontains with
  | one => cases hvacant
  | present _ ih =>
      cases hvacant with
      | present hinner => exact ih hinner
  | many hmem _ ih =>
      cases hvacant with
      | many hall => exact ih (hall _ hmem)

theorem contains_ofOption_iff {found : Option α} {value : α} :
    (ofOption found).Contains value ↔ found = some value := by
  rw [← mem_scalars_iff]
  cases found <;> simp [ofOption, scalars, eq_comm]

theorem any_eq_true_iff {holds : α → Bool} {cell : Cell α} :
    cell.any holds = true ↔ ∃ value, cell.Contains value ∧ holds value = true := by
  rw [any_eq_any_scalars, List.any_eq_true]
  simp only [mem_scalars_iff]

end RecordCondition.Cell
