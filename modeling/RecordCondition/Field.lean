import RecordCondition.Cell
import RecordCondition.Pattern
import RecordCondition.Scalar

/-!
# Fields

What a condition needs to know about a field of a record: how to check the text
of a value for it, which comparators may be used on it, and how to carry out a
lookup on a record.  A field that is not checked accepts any value and any
comparator; it may still have a column behind it.
-/

namespace RecordCondition

/-- Where a record of type `R` holds values of a scalar type. -/
structure Column (R : Type) where
  type : ScalarType
  read : R → Cell type.Value

/-- A column with the comparators that it permits and with what its values must
satisfy. -/
structure TypedField (R : Type) where
  column : Column R
  operators : ComparatorSet
  min : Option column.type.Value := none
  max : Option column.type.Value := none
  pattern : Option Pattern := none

inductive Field (R : Type)
  | typed (field : TypedField R)
  /-- A field that is not checked and has no column. -/
  | bare
  /-- A field that is not checked, over one that has a column. -/
  | over (field : Field R)

/-- Why a text is no value of a field. -/
inductive ValueError
  | unreadable (e : ScalarError)
  | belowMinimum (bound : String)
  | aboveMaximum (bound : String)
  | mismatch (pattern : String)
  deriving DecidableEq, Repr

inductive FieldError
  | noColumn
  | value (e : ValueError)
  deriving DecidableEq, Repr

def ValueError.message : ValueError → String
  | .unreadable e => e.message
  | .belowMinimum bound => s!"ensure this value is greater than or equal to {bound}"
  | .aboveMaximum bound => s!"ensure this value is less than or equal to {bound}"
  | .mismatch pattern => s!"value does not match {pattern}"

def FieldError.message : FieldError → String
  | .noColumn => "field has no backing column"
  | .value e => e.message

variable {R : Type}

/-! ## Columns -/

/-- The test of records that a lookup on a column makes. -/
def Column.filter (column : Column R) (lookup : Lookup) (operand : String) :
    Except FieldError (R → Bool) :=
  match column.type.test lookup operand with
  | .ok holds => .ok fun record => (column.read record).any holds
  | .error e => .error (.value (.unreadable e))

/-! ## Checking values -/

namespace TypedField

def type (field : TypedField R) : ScalarType :=
  field.column.type

def isBelowMinimum (field : TypedField R) (value : field.type.Value) : Option ValueError :=
  match field.min with
  | none => none
  | some bound =>
      if field.column.type.isLess value bound then
        some (.belowMinimum (field.column.type.display bound))
      else
        none

def isAboveMaximum (field : TypedField R) (value : field.type.Value) : Option ValueError :=
  match field.max with
  | none => none
  | some bound =>
      if field.column.type.isGreater value bound then
        some (.aboveMaximum (field.column.type.display bound))
      else
        none

/-- The pattern is searched for in the text as it was written. -/
def isMismatch (field : TypedField R) (raw : String) : Option ValueError :=
  match field.pattern with
  | none => none
  | some pattern => if pattern.isMatch raw then none else some (.mismatch pattern.source)

/-- The first of the constraints that a value breaks. -/
def violation (field : TypedField R) (raw : String) (value : field.type.Value) :
    Option ValueError :=
  (field.isBelowMinimum value).or ((field.isAboveMaximum value).or (field.isMismatch raw))

/-- The value of a text as the field would write it. -/
def clean (field : TypedField R) (raw : String) : Except ValueError String :=
  match field.type.read raw with
  | .error e => .error (.unreadable e)
  | .ok value =>
      match field.violation raw value with
      | some e => .error e
      | none => .ok (field.type.display value)

end TypedField

/-! ## Fields of both kinds -/

namespace Field

def isIgnored : Field R → Bool
  | .typed _ => false
  | .bare | .over _ => true

def operators : Field R → ComparatorSet
  | .typed field => field.operators
  | .bare | .over _ => .all

def clean : Field R → String → Except FieldError String
  | .typed field, raw => (field.clean raw).mapError .value
  | .bare, raw | .over _, raw => .ok raw

/-- The test of records that a lookup on a field makes. -/
def filter : Field R → Lookup → String → Except FieldError (R → Bool)
  | .typed field, lookup, operand => field.column.filter lookup operand
  | .bare, _, _ => .error .noColumn
  | .over field, lookup, operand => field.filter lookup operand

end Field

end RecordCondition
