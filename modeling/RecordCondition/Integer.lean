import RecordCondition.Decimal

/-!
# Integers of a fixed width

An integer type is a sign and a number of bits.  A value carries the proof that
it lies in the range of its type.  Reading goes from left to right and stops at
the first character that is no digit or leaves the range.
-/

namespace RecordCondition

structure IntegerType where
  signed : Bool
  bits : Nat
  deriving DecidableEq, Repr

namespace IntegerType

def lower (type : IntegerType) : Int :=
  if type.signed then -(Nat.pow 2 (type.bits - 1) : Int) else 0

def upper (type : IntegerType) : Int :=
  if type.signed then (Nat.pow 2 (type.bits - 1) : Int) - 1 else (Nat.pow 2 type.bits : Int) - 1

abbrev Value (type : IntegerType) : Type :=
  { n : Int // type.lower ≤ n ∧ n ≤ type.upper }

theorem lower_le_zero (type : IntegerType) : type.lower ≤ 0 := by
  unfold lower
  split
  · exact Int.neg_nonpos_of_nonneg (Int.natCast_nonneg _)
  · exact Int.le_refl 0

theorem zero_le_upper (type : IntegerType) : 0 ≤ type.upper := by
  unfold upper
  have hsigned : 1 ≤ Nat.pow 2 (type.bits - 1) := Nat.one_le_two_pow
  have hunsigned : 1 ≤ Nat.pow 2 type.bits := Nat.one_le_two_pow
  split <;> omega

def zero (type : IntegerType) : type.Value :=
  ⟨0, type.lower_le_zero, type.zero_le_upper⟩

def ofInt? (type : IntegerType) (n : Int) : Option type.Value :=
  if hrange : type.lower ≤ n ∧ n ≤ type.upper then some ⟨n, hrange⟩ else none

inductive ReadError
  | empty
  | invalidDigit
  | tooLarge
  | tooSmall
  deriving DecidableEq, Repr

def ReadError.message : ReadError → String
  | .empty => "cannot parse integer from empty string"
  | .invalidDigit => "invalid digit found in string"
  | .tooLarge => "number too large to fit in target type"
  | .tooSmall => "number too small to fit in target type"

/-- Takes the digits after those of `value`, away from zero on the side of the
sign. -/
def readDigits (type : IntegerType) (negative : Bool) :
    type.Value → List Char → Except ReadError type.Value
  | value, [] => .ok value
  | value, c :: rest =>
      if c.isDigit then
        let digit : Int := digitValue c
        let next := if negative then 10 * value.1 - digit else 10 * value.1 + digit
        match type.ofInt? next with
        | some value => readDigits type negative value rest
        | none => .error (if negative then .tooSmall else .tooLarge)
      else
        .error .invalidDigit

/-- The sign in front of the digits.  Only signed types know a minus. -/
def splitSign (type : IntegerType) : List Char → Bool × List Char
  | '+' :: rest => (false, rest)
  | '-' :: rest => if type.signed then (true, rest) else (false, '-' :: rest)
  | text => (false, text)

def read (type : IntegerType) (text : String) : Except ReadError type.Value :=
  match text.toList with
  | [] => .error .empty
  | c :: rest =>
      match type.splitSign (c :: rest) with
      | (_, []) => .error .invalidDigit
      | (negative, digits) => type.readDigits negative type.zero digits

def display {type : IntegerType} (value : type.Value) : String :=
  String.ofList
    (if value.1 < 0 then '-' :: decimal value.1.natAbs else decimal value.1.natAbs)

end IntegerType

end RecordCondition
