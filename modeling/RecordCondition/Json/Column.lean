import RecordCondition.Field
import RecordCondition.Json

/-!
# Columns of JSON objects

A record may be a JSON value, read by the keys of an object.  A key that is
missing, and a value of another kind than the column's, leave the cell empty.
-/

namespace RecordCondition

namespace Json

/-- The scalar types that JSON values have. -/
inductive Kind
  | double
  | signed
  | unsigned
  | truth
  | text
  deriving DecidableEq, Repr

def Kind.type : Kind → ScalarType
  | .double => .binary .double
  | .signed => .integer signed64
  | .unsigned => .integer unsigned64
  | .truth => .truth
  | .text => .text

/-- The value of a kind that a JSON value is. -/
def Kind.read : (kind : Kind) → Json → Option kind.type.Value
  | .double, json => json.double?
  | .signed, json => json.integer? signed64
  | .unsigned, json => json.integer? unsigned64
  | .truth, json => json.truth?
  | .text, json => json.string?

/-- The value at a key of a record. -/
def Kind.readKey (kind : Kind) (key : String) (record : Json) : Option kind.type.Value :=
  (record.get? key).bind kind.read

def column (kind : Kind) (key : String) : Column Json :=
  ⟨kind.type, fun record => .ofOption (kind.readKey key record)⟩

end Json

end RecordCondition
