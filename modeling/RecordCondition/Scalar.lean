import RecordCondition.Binary.Text
import RecordCondition.Comparator
import RecordCondition.Instant
import RecordCondition.Integer

/-!
# Scalar types

The types that a single value of a field may have.  Each can be read from text,
written back, and compared; the order is partial, since NaN compares with
nothing.  A lookup with its operand read as the type of the field is a test of
single values.
-/

namespace RecordCondition

inductive ScalarType
  | integer (type : IntegerType)
  | binary (format : BinaryFormat)
  | truth
  | text
  /-- Instants shown in universal time. -/
  | utc
  /-- Instants shown at the offset that they were written with. -/
  | fixed
  deriving DecidableEq, Repr

inductive ScalarError
  | integer (e : IntegerType.ReadError)
  | binary (e : Binary.ReadError)
  | truth
  | instant (e : Instant.ReadError)
  deriving DecidableEq, Repr

def ScalarError.message : ScalarError → String
  | .integer e => e.message
  | .binary e => e.message
  | .truth => "provided string was not `true` or `false`"
  | .instant e => e.message

namespace ScalarType

def Value : ScalarType → Type
  | .integer type => type.Value
  | .binary format => Binary format
  | .truth => Bool
  | .text => String
  | .utc => Instant
  | .fixed => Instant

def read : (type : ScalarType) → String → Except ScalarError type.Value
  | .integer type, raw => (type.read raw).mapError .integer
  | .binary format, raw => (Binary.read format raw).mapError .binary
  | .truth, raw =>
      if raw = "true" then .ok true else if raw = "false" then .ok false else .error .truth
  | .text, raw => .ok raw
  | .utc, raw => ((Instant.read raw).map Instant.toUtc).mapError .instant
  | .fixed, raw => (Instant.read raw).mapError .instant

def display : (type : ScalarType) → type.Value → String
  | .integer _, value => IntegerType.display value
  | .binary _, value => Binary.display value
  | .truth, true => "true"
  | .truth, false => "false"
  | .text, value => value
  | .utc, value => Instant.displayUtc value
  | .fixed, value => Instant.displayFixed value

/-- The order of two values of a type, where they have one.  Text is ordered by
code points. -/
def compare? : (type : ScalarType) → type.Value → type.Value → Option Ordering
  | .integer _, left, right => some (compare left.1 right.1)
  | .binary _, left, right => Binary.compare? left right
  | .truth, left, right => some (@compare Bool _ left right)
  | .text, left, right => some (@compare String _ left right)
  | .utc, left, right => some (Instant.compare left right)
  | .fixed, left, right => some (Instant.compare left right)

def isLess (type : ScalarType) (left right : type.Value) : Bool :=
  type.compare? left right == some .lt

def isGreater (type : ScalarType) (left right : type.Value) : Bool :=
  type.compare? left right == some .gt

end ScalarType

/-! ## Lookups -/

/-- Whether one text occurs within another. -/
def occursIn (part : List Char) : List Char → Bool
  | [] => part.isEmpty
  | c :: rest => part.isPrefixOf (c :: rest) || occursIn part rest

theorem occursIn_iff {part text : List Char} :
    occursIn part text = true ↔ part <:+: text := by
  induction text with
  | nil => simp [occursIn, List.isEmpty_iff]
  | cons c rest ih =>
      rw [occursIn, Bool.or_eq_true, ih, List.isPrefixOf_iff_prefix, List.infix_cons_iff]

/-- Whether a lookup that orders values accepts the order of a value and its
operand. -/
def Lookup.accepts : Lookup → Option Ordering → Bool
  | .exact, some .eq => true
  | .less, some .lt => true
  | .lessEqual, some .lt => true
  | .lessEqual, some .eq => true
  | .greater, some .gt => true
  | .greaterEqual, some .gt => true
  | .greaterEqual, some .eq => true
  | _, _ => false

/-- The test of a value that a lookup makes of the text of its operand.  The
operand is read as a value, except that containment compares text with text. -/
def ScalarType.test (type : ScalarType) (lookup : Lookup) (operand : String) :
    Except ScalarError (type.Value → Bool) :=
  match lookup with
  | .contains => .ok fun value => occursIn operand.toList (type.display value).toList
  | lookup => do
      let target ← type.read operand
      .ok fun value => lookup.accepts (type.compare? value target)

end RecordCondition
