import RecordCondition.Scalar

/-!
# Reading what was written

Integers, truth values and text are read back from the text that they are written
as.  For an integer every digit that is read stays within the range of its type,
since what stands before it is nearer to zero.
-/

namespace RecordCondition

namespace IntegerType

variable {type : IntegerType} {negative : Bool}

theorem ofInt?_val (value : type.Value) : type.ofInt? value.1 = some value := by
  unfold ofInt?
  rw [dif_pos value.2]

/-- The number on the side of the sign. -/
def withSign (negative : Bool) (n : Nat) : Int :=
  if negative then -(n : Int) else n

theorem readDigits_digitChar {value next : type.Value} {digit : Nat} (hdigit : digit < 10)
    (hnext : next.1 = 10 * value.1 + withSign negative digit) (rest : List Char) :
    type.readDigits negative value (digitChar digit :: rest) =
      type.readDigits negative next rest := by
  have hstep : (if negative then 10 * value.1 - (digit : Int) else 10 * value.1 + (digit : Int)) =
      next.1 := by
    rw [hnext, withSign]
    cases negative <;> simp [Int.sub_eq_add_neg]
  rw [readDigits, if_pos (isDigit_digitChar hdigit)]
  simp only [digitValue_digitChar hdigit, hstep, ofInt?_val]

theorem readDigits_append (value : type.Value) (digits rest : List Char) :
    type.readDigits negative value (digits ++ rest) =
      (type.readDigits negative value digits).bind fun next =>
        type.readDigits negative next rest := by
  induction digits generalizing value with
  | nil => rfl
  | cons c digits ih =>
      rw [List.cons_append, readDigits, readDigits]
      by_cases hdigit : c.isDigit = true
      · rw [if_pos hdigit, if_pos hdigit]
        simp only
        cases type.ofInt?
            (if negative then 10 * value.1 - (digitValue c : Int)
              else 10 * value.1 + (digitValue c : Int)) with
        | none => rfl
        | some next => exact ih next
      · rw [if_neg hdigit, if_neg hdigit]
        rfl

theorem readDigits_decimal {n : Nat} {value : type.Value}
    (hvalue : value.1 = withSign negative n) :
    type.readDigits negative type.zero (decimal n) = .ok value := by
  fun_induction decimal n generalizing value with
  | case1 n hlt =>
      have hnext : value.1 = 10 * type.zero.1 + withSign negative n := by
        rw [hvalue, zero, Int.mul_zero, Int.zero_add]
      rw [readDigits_digitChar hlt hnext]
      rfl
  | case2 n hge ih =>
      have hlower := type.lower_le_zero
      have hupper := type.zero_le_upper
      have hrange := value.2
      rw [hvalue] at hrange
      -- The digits in front stand for a number between this one and zero.
      have hfront : type.lower ≤ withSign negative (n / 10) ∧
          withSign negative (n / 10) ≤ type.upper := by
        unfold withSign at hrange ⊢
        cases negative with
        | false =>
            simp only [Bool.false_eq_true, if_false] at hrange ⊢
            omega
        | true =>
            simp only [if_true] at hrange ⊢
            omega
      have hnext : value.1 = 10 * withSign negative (n / 10) + withSign negative (n % 10) := by
        rw [hvalue]
        unfold withSign
        cases negative with
        | false =>
            simp only [Bool.false_eq_true, if_false]
            omega
        | true =>
            simp only [if_true]
            omega
      have hread : type.readDigits negative type.zero (decimal (n / 10)) =
          .ok ⟨withSign negative (n / 10), hfront⟩ := ih rfl
      rw [readDigits_append, hread]
      exact readDigits_digitChar (Nat.mod_lt n (by omega)) hnext []

theorem splitSign_of_isDigit {c : Char} (hdigit : c.isDigit = true) (rest : List Char) :
    type.splitSign (c :: rest) = (false, c :: rest) := by
  unfold splitSign
  split
  · next heq =>
      obtain ⟨rfl, rfl⟩ := List.cons.inj heq
      exact absurd hdigit (by decide)
  · next heq =>
      obtain ⟨rfl, rfl⟩ := List.cons.inj heq
      exact absurd hdigit (by decide)
  · rfl

theorem signed_of_neg {value : type.Value} (hneg : value.1 < 0) : type.signed = true := by
  have hlower := value.2.1
  by_cases hsigned : type.signed = true
  · exact hsigned
  · have hzero : type.lower = 0 := if_neg hsigned
    omega

theorem read_display (value : type.Value) : type.read (display value) = .ok value := by
  obtain ⟨c, rest, hdecimal⟩ := List.exists_cons_of_ne_nil (decimal_ne_nil value.1.natAbs)
  unfold read display
  rw [String.toList_ofList]
  by_cases hneg : value.1 < 0
  · have hvalue : value.1 = withSign true value.1.natAbs := by
      simp only [withSign, if_true]
      omega
    have hdigits := readDigits_decimal hvalue
    rw [hdecimal] at hdigits
    rw [if_pos hneg, hdecimal]
    simp only [splitSign, signed_of_neg hneg, if_true]
    exact hdigits
  · have hvalue : value.1 = withSign false value.1.natAbs := by
      simp only [withSign, Bool.false_eq_true, if_false]
      omega
    have hdigits := readDigits_decimal hvalue
    have hdigit : c.isDigit = true :=
      isDigit_of_mem_decimal (hdecimal ▸ List.mem_cons_self)
    rw [hdecimal] at hdigits
    rw [if_neg hneg, hdecimal]
    simp only [splitSign_of_isDigit hdigit]
    exact hdigits

end IntegerType

namespace ScalarType

/-- Integers, truth values and text, which are read back as they are written. -/
def Exact : ScalarType → Prop
  | .integer _ | .truth | .text => True
  | .binary _ | .utc | .fixed => False

theorem read_display {type : ScalarType} (hexact : type.Exact) (value : type.Value) :
    type.read (type.display value) = .ok value := by
  cases type with
  | integer type =>
      have hread : type.read (IntegerType.display value) = .ok value :=
        IntegerType.read_display value
      rw [read, display, hread]
      rfl
  | truth => cases value <;> rfl
  | text => rfl
  | binary format => exact hexact.elim
  | utc => exact hexact.elim
  | fixed => exact hexact.elim

end ScalarType

end RecordCondition
