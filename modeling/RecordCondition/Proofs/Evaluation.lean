import Mathlib.Data.List.Infix
import RecordCondition.Expr
import RecordCondition.Registry

/-!
# What a condition says of a record

A condition is evaluated here as it is written, with no predicate in between.
Both sides of a relation stay where they are, a literal in front of a field
included, and a relation and its denial are told apart only at the very end.
The fields that cannot be asked leave a comparison false; whoever compares this
meaning with a predicate knows that the fields can.

A group without any comparison says nothing, so junctions pass over it.
-/

namespace RecordCondition

/-- The order of the left side and the right side that a relation asks for. -/
def Relation.accepts : Relation → Ordering → Bool
  | .equal, .eq => true
  | .less, .lt => true
  | .lessEqual, .lt => true
  | .lessEqual, .eq => true
  | .greater, .gt => true
  | .greaterEqual, .gt => true
  | .greaterEqual, .eq => true
  | _, _ => false

variable {R : Type}

namespace Column

/-- Whether some value of the record stands in a relation to the operand, read
as a value of the column; the operand may stand on the left. -/
def compares (column : Column R) (record : R) (operandFirst : Bool) (relation : Relation)
    (operand : String) : Bool :=
  match column.type.read operand with
  | .error _ => false
  | .ok target =>
      (column.read record).scalars.any fun value =>
        if operandFirst then (column.type.compare? target value).any relation.accepts
        else (column.type.compare? value target).any relation.accepts

/-- Whether the text of some value of the record contains the operand. -/
def mentions (column : Column R) (record : R) (operand : String) : Bool :=
  (column.read record).scalars.any fun value =>
    decide (operand.toList <:+: (column.type.display value).toList)

def relates (column : Column R) (record : R) (operandFirst : Bool) (relation : Relation)
    (operand : String) : Bool :=
  match relation with
  | .in => column.mentions record operand
  | .notIn => !column.mentions record operand
  | .notEqual => !column.compares record operandFirst .equal operand
  | relation => column.compares record operandFirst relation operand

end Column

/-- The column that is behind a field, however often it is wrapped. -/
def Field.column? : Field R → Option (Column R)
  | .typed field => some field.column
  | .bare => none
  | .over field => field.column?

namespace Registry

variable (registry : Registry R)

def relates (record : R) (name : String) (operandFirst : Bool) (relation : Relation)
    (operand : String) : Bool :=
  match (registry.get? name).bind Field.column? with
  | some column => column.relates record operandFirst relation operand
  | none => false

/-- A single link.  Of two names, and of two literals, the left one is the
field. -/
def holdsBetween (record : R) : Expr → Relation → Expr → Bool
  | .name id, relation, .name other =>
      registry.relates record id false relation other
  | .name id, relation, .constant value =>
      registry.relates record id false relation value.display
  | .constant value, relation, .name id =>
      registry.relates record id true relation value.display
  | .constant value, relation, .constant other =>
      registry.relates record value.display false relation other.display
  | _, _, _ => false

def holdsAlong (record : R) : Expr → List Relation → List Expr → Bool
  | left, relation :: relations, operand :: operands =>
      registry.holdsBetween record left relation operand &&
        holdsAlong record operand relations operands
  | _, _, _ => true

end Registry

mutual

def Expr.compares : Expr → Bool
  | .junction _ values => Expr.anyCompares values
  | .compare .. => true
  | _ => false

def Expr.anyCompares : List Expr → Bool
  | [] => false
  | value :: values => value.compares || Expr.anyCompares values

end

namespace Registry

variable (registry : Registry R) (record : R)

mutual

def evaluate : Expr → Bool
  | .junction .and values => evaluateAll values
  | .junction .or values => !Expr.anyCompares values || evaluateAny values
  | .compare left relations operands => registry.holdsAlong record left relations operands
  | _ => false

def evaluateAll : List Expr → Bool
  | [] => true
  | value :: values => (!value.compares || evaluate value) && evaluateAll values

def evaluateAny : List Expr → Bool
  | [] => false
  | value :: values => (value.compares && evaluate value) || evaluateAny values

end

end Registry

end RecordCondition
