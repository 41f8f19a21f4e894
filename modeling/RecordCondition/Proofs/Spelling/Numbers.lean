import RecordCondition.Proofs.Spelling.Layout

/-!
# What is read as a number

The text that is split off as a number has the form of a number.
-/

namespace RecordCondition

theorem allDigits_takeWhile (cs : List Char) : AllDigits (cs.takeWhile Char.isDigit) := by
  intro c hc
  exact List.all_eq_true.mp List.all_takeWhile c hc

theorem isFraction_splitFraction (cs : List Char) : IsFraction (splitFraction cs).1 := by
  unfold splitFraction
  split
  · exact .some (allDigits_takeWhile _)
  · exact .none

theorem isSign_splitSign (cs : List Char) : IsSign (splitSign cs).1 := by
  unfold splitSign
  split
  · exact Or.inr (Or.inl rfl)
  · exact Or.inr (Or.inr rfl)
  · exact Or.inl rfl

theorem takeWhile_isDigit_ne_nil {cs : List Char} (hdigit : startsWithDigit cs = true) :
    cs.takeWhile Char.isDigit ≠ [] := by
  cases cs with
  | nil => exact absurd hdigit (by decide)
  | cons c rest =>
      have hc : c.isDigit = true := hdigit
      rw [List.takeWhile_cons_of_pos hc]
      exact List.cons_ne_nil _ _

theorem isExponent_splitExponent (cs : List Char) : IsExponent (splitExponent cs).1 := by
  unfold splitExponent
  split
  · exact .none
  · next c rest =>
      split
      · next hexponent =>
          rw [Bool.and_eq_true, Bool.or_eq_true, decide_eq_true_iff,
            decide_eq_true_iff] at hexponent
          exact .some hexponent.1 (isSign_splitSign rest)
            (takeWhile_isDigit_ne_nil hexponent.2) (allDigits_takeWhile _)
      · exact .none

structure IsUnsigned (whole fraction exponent : List Char) : Prop where
  nonempty : whole ≠ []
  digits : AllDigits whole
  fraction : IsFraction fraction
  exponent : IsExponent exponent

theorem isUnsigned_splitNumber {cs : List Char} (hdigit : startsWithDigit cs = true) :
    ∃ whole fraction exponent, (splitNumber cs).1 = whole ++ fraction ++ exponent ∧
      IsUnsigned whole fraction exponent :=
  ⟨_, _, _, rfl, takeWhile_isDigit_ne_nil hdigit, allDigits_takeWhile cs,
    isFraction_splitFraction _, isExponent_splitExponent _⟩

end RecordCondition
