/-!
# Decimal digits

The digits of a natural number, most significant first and without leading
zeros, and the number that a string of digits stands for.
-/

namespace RecordCondition

def digitChar (digit : Nat) : Char :=
  Char.ofNat (48 + digit)

def digitValue (c : Char) : Nat :=
  c.toNat - 48

def decimal (n : Nat) : List Char :=
  if n < 10 then [digitChar n] else decimal (n / 10) ++ [digitChar (n % 10)]

def decimalValue (digits : List Char) : Nat :=
  digits.foldl (fun value c => 10 * value + digitValue c) 0

/-- The digits of a number with zeros in front up to a width. -/
def paddedDecimal (width n : Nat) : List Char :=
  List.replicate (width - (decimal n).length) '0' ++ decimal n

theorem digitChar_toNat {digit : Nat} (hdigit : digit < 10) :
    (digitChar digit).toNat = 48 + digit := by
  have hvalid : (48 + digit).isValidChar := Or.inl (by omega)
  unfold digitChar Char.ofNat
  rw [dif_pos hvalid]
  rfl

@[simp] theorem digitValue_digitChar {digit : Nat} (hdigit : digit < 10) :
    digitValue (digitChar digit) = digit := by
  simp [digitValue, digitChar_toNat hdigit]

theorem isDigit_digitChar {digit : Nat} (hdigit : digit < 10) :
    (digitChar digit).isDigit = true := by
  revert hdigit
  revert digit
  decide

theorem isDigit_of_mem_decimal {n : Nat} {c : Char} (hmem : c ∈ decimal n) :
    c.isDigit = true := by
  fun_induction decimal n with
  | case1 n hlt =>
      rw [List.mem_singleton] at hmem
      exact hmem ▸ isDigit_digitChar hlt
  | case2 n hge ih =>
      rw [List.mem_append, List.mem_singleton] at hmem
      rcases hmem with hmem | rfl
      · exact ih hmem
      · exact isDigit_digitChar (Nat.mod_lt _ (by omega))

theorem decimal_ne_nil (n : Nat) : decimal n ≠ [] := by
  unfold decimal
  split <;> simp

end RecordCondition
