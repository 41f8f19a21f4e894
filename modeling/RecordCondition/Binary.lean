/-!
# Binary floating-point numbers

A finite number of a binary format is a whole multiple of the least positive
number of the format, so it is kept as a sign and a count of those units, and
every comparison is one of whole numbers.  A ratio is rounded to the nearest
multiple that the precision admits, and a tie goes to the even neighbour.
-/

namespace RecordCondition

/-- A format has significands of `precision` bits, the least positive number is
`2 ^ -scale`, and every finite number is less than `2 ^ magnitudeBits` units. -/
structure BinaryFormat where
  precision : Nat
  scale : Nat
  magnitudeBits : Nat
  deriving DecidableEq, Repr

def BinaryFormat.single : BinaryFormat := ⟨24, 149, 277⟩

def BinaryFormat.double : BinaryFormat := ⟨53, 1074, 2098⟩

inductive Binary (format : BinaryFormat)
  | nan
  | infinite (negative : Bool)
  | finite (negative : Bool) (units : Nat)
  deriving DecidableEq, Repr

namespace Binary

variable {format : BinaryFormat}

/-! ## Rounding -/

/-- A quotient rounded to the nearest whole number, and to the even one of two
that are equally near. -/
def roundQuotient (numerator denominator : Nat) : Nat :=
  let quotient := numerator / denominator
  let remainder := numerator % denominator
  if 2 * remainder < denominator then quotient
  else if denominator < 2 * remainder then quotient + 1
  else quotient + quotient % 2

/-- The gap between neighbouring numbers of the format around some units. -/
def gap (format : BinaryFormat) (units : Nat) : Nat :=
  Nat.pow 2 (units.log2 + 1 - format.precision)

/-- The nearest number of the format to a ratio. -/
def ofRatio (format : BinaryFormat) (negative : Bool) (numerator denominator : Nat) :
    Binary format :=
  let scaled := numerator * Nat.pow 2 format.scale
  let step := gap format (scaled / denominator)
  let units := roundQuotient scaled (denominator * step) * step
  if units < Nat.pow 2 format.magnitudeBits then .finite negative units else .infinite negative

/-- The nearest number of the format to `significand * 10 ^ exponent`, where the
significand has `digits` digits.  A number with more digits before its point
than the format has bits for is infinite, and one with more zeros after its
point is zero, whatever its digits are. -/
def ofScientific (format : BinaryFormat) (negative : Bool) (significand digits : Nat)
    (exponent : Int) : Binary format :=
  let size := digits + exponent
  if significand = 0 then .finite negative 0
  else if format.magnitudeBits ≤ 3 * (size - 1) + format.scale then .infinite negative
  else if 3 * size + format.scale + 1 ≤ 0 then .finite negative 0
  else ofRatio format negative (significand * Nat.pow 10 exponent.toNat)
      (Nat.pow 10 (-exponent).toNat)

def ofNat (format : BinaryFormat) (n : Nat) : Binary format :=
  ofRatio format false n 1

/-! ## Order -/

def signed (negative : Bool) (units : Nat) : Int :=
  if negative then -(units : Int) else units

/-- The place of a number on the extended line: an infinity lies beyond every
finite number, and the two zeros share a place. -/
def place : Binary format → Option (Int × Int)
  | .nan => none
  | .infinite true => some (-1, 0)
  | .infinite false => some (1, 0)
  | .finite negative units => some (0, signed negative units)

/-- The order of two numbers.  NaN has no place in the order. -/
def compare? (left right : Binary format) : Option Ordering :=
  match left.place, right.place with
  | some left, some right => some ((compare left.1 right.1).then (compare left.2 right.2))
  | _, _ => none

@[simp] theorem compare?_nan_left (right : Binary format) :
    compare? .nan right = none := rfl

@[simp] theorem compare?_nan_right (left : Binary format) :
    compare? left .nan = none := by
  unfold compare?
  cases left.place <;> rfl

end Binary

end RecordCondition
