import RecordCondition.Binary
import RecordCondition.Decimal
import RecordCondition.Token.Lexer

/-!
# The text of binary floating-point numbers

A number is written with the fewest digits that read back to it, the nearest
such decimal where there are several, and never with an exponent.  Reading
accepts decimals with an optional sign, fraction and exponent, and the names of
the infinities and of NaN in any case.
-/

namespace RecordCondition

namespace Binary

/-! ## The fewest digits -/

/-- The decimals that read back to some units of a format, in quarters of a
unit: everything between the halfway points to the two neighbours.  The
halfway points belong to it when the significand is even. -/
structure Interval where
  low : Nat
  high : Nat
  closed : Bool
  deriving DecidableEq, Repr

def interval (format : BinaryFormat) (units : Nat) : Interval :=
  let step := gap format units
  let narrow := 1 < step ∧ units = Nat.pow 2 (format.precision - 1) * step
  { low := 4 * units - (if narrow then step else 2 * step)
    high := 4 * units + 2 * step
    closed := units / step % 2 = 0 }

/-- Membership of `numerator / denominator` units. -/
def Interval.contains (i : Interval) (numerator denominator : Nat) : Bool :=
  let low := i.low * denominator
  let high := i.high * denominator
  if i.closed then low ≤ 4 * numerator && 4 * numerator ≤ high
  else low < 4 * numerator && 4 * numerator < high

/-- The decimal nearest to `exact` on the grid of the multiples of `grid`, if
one reads back.  A tie goes away from zero.  Both numbers count parts of a
unit, of which there are `parts`. -/
def onGrid (i : Interval) (parts exact grid : Nat) : Option Nat :=
  let below := exact / grid
  let lower := i.contains (below * grid) parts
  let upper := i.contains ((below + 1) * grid) parts
  if lower && (!upper || 2 * exact < (2 * below + 1) * grid) then some below
  else if upper then some (below + 1)
  else none

/-- Digits and the power of ten that they are multiplied by. -/
structure Scientific where
  digits : Nat
  exponent : Int
  deriving DecidableEq, Repr

/-- The shortest decimal that reads back to some units.  A unit is `2 ^ -scale`,
that is `5 ^ scale` parts of size `10 ^ -scale`, so on the grid of single parts
the number itself is found. -/
def shortest (format : BinaryFormat) (units : Nat) : Scientific :=
  let parts := Nat.pow 5 format.scale
  let exact := units * parts
  let places := (decimal exact).length
  let found := (List.range places).findSome? fun dropped =>
    let grid := Nat.pow 10 (places - 1 - dropped)
    (onGrid (interval format units) parts exact grid).map fun digits =>
      (digits, places - 1 - dropped)
  let (digits, zeros) := found.getD (exact, 0)
  if digits = 10 then ⟨1, zeros + 1 - format.scale⟩ else ⟨digits, zeros - format.scale⟩

/-! ## Writing -/

/-- Digits with a point and zeros in place of the power of ten. -/
def Scientific.positional (s : Scientific) : List Char :=
  let digits := decimal s.digits
  let places := (-s.exponent).toNat
  if s.exponent ≥ 0 then digits ++ List.replicate s.exponent.toNat '0'
  else if places < digits.length then
    digits.take (digits.length - places) ++ '.' :: digits.drop (digits.length - places)
  else '0' :: '.' :: (List.replicate (places - digits.length) '0' ++ digits)

def display {format : BinaryFormat} : Binary format → String
  | .nan => "NaN"
  | .infinite true => "-inf"
  | .infinite false => "inf"
  | .finite negative units =>
      let digits := if units = 0 then ['0'] else (shortest format units).positional
      String.ofList (if negative then '-' :: digits else digits)

/-! ## Reading -/

inductive ReadError
  | empty
  | invalid
  deriving DecidableEq, Repr

def ReadError.message : ReadError → String
  | .empty => "cannot parse float from empty string"
  | .invalid => "invalid float literal"

/-- The exponent that a whole text consists of: nothing, or a letter and a
number with an optional sign. -/
def readExponent : List Char → Option Int
  | [] => some 0
  | letter :: rest =>
      let (sign, digits) := splitSign rest
      if (letter = 'e' || letter = 'E') && !digits.isEmpty && digits.all Char.isDigit then
        some (if sign = ['-'] then -(decimalValue digits : Int) else decimalValue digits)
      else
        none

/-- The number that an unsigned text stands for, which is a name or a decimal
with a digit on at least one side of its point. -/
def readUnsigned (format : BinaryFormat) (negative : Bool) (text : List Char) :
    Option (Binary format) :=
  match String.ofList (text.map Char.toLower) with
  | "inf" | "infinity" => some (.infinite negative)
  | "nan" => some .nan
  | _ => do
      let whole := text.takeWhile Char.isDigit
      let (fraction, rest) := splitFraction (text.dropWhile Char.isDigit)
      let digits := whole ++ fraction.drop 1
      let exponent ← readExponent rest
      if digits.isEmpty then
        none
      else
        let significant := digits.dropWhile (· = '0')
        some (ofScientific format negative (decimalValue significant) significant.length
          (exponent - (fraction.length - 1 : Nat)))

def read (format : BinaryFormat) (text : String) : Except ReadError (Binary format) :=
  if text.isEmpty then
    .error .empty
  else
    let (sign, rest) := splitSign text.toList
    match readUnsigned format (sign = ['-']) rest with
    | some value => .ok value
    | none => .error .invalid

end Binary

end RecordCondition
