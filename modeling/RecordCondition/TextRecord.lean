import RecordCondition.Field

/-!
# Records written as text

A record whose cells are written as text, with a place for a missing value and
lists.  The shape of a column says how its cells nest.
-/

namespace RecordCondition

inductive TextCell
  | text (raw : String)
  | absent
  | many (cells : List TextCell)

abbrev TextRecord : Type := List (String × TextCell)

inductive Shape
  | one
  | optional (shape : Shape)
  | list (shape : Shape)
  deriving DecidableEq, Repr

/-- The values of a written cell.  What is not written as its shape demands is
taken to be missing. -/
def Shape.read (type : ScalarType) : Shape → TextCell → Cell type.Value
  | .one, .text raw =>
      match type.read raw with
      | .ok value => .one value
      | .error _ => .absent
  | .optional _, .absent => .absent
  | .optional shape, cell => .present (shape.read type cell)
  | .list shape, .many cells => .many (cells.map (shape.read type))
  | _, _ => .absent

namespace TextRecord

def cell (record : TextRecord) (key : String) : TextCell :=
  (List.lookup key record).getD .absent

def column (shape : Shape) (type : ScalarType) (key : String) : Column TextRecord :=
  ⟨type, fun record => shape.read type (record.cell key)⟩

/-- The single value at a key. -/
def scalar? (record : TextRecord) (type : ScalarType) (key : String) : Option type.Value :=
  match record.cell key with
  | .text raw => (type.read raw).toOption
  | _ => none

/-- The value at a key, or none where it is missing. -/
def optional? (record : TextRecord) (type : ScalarType) (key : String) :
    Option (Option type.Value) :=
  match record.cell key with
  | .absent => some none
  | .text raw => (type.read raw).toOption.map some
  | .many _ => none

/-- The values of a list at a key. -/
def list? (record : TextRecord) (type : ScalarType) (key : String) : Option (List type.Value) :=
  match record.cell key with
  | .many cells =>
      cells.mapM fun
        | .text raw => (type.read raw).toOption
        | _ => none
  | _ => none

end TextRecord

end RecordCondition
