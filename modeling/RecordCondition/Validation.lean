import RecordCondition.Build
import RecordCondition.Expr.Parser
import RecordCondition.Limits

/-!
# Validating conditions

A condition is checked against the fields of a registry in two steps.  The walk
collects what is demanded of each field: the values and comparators that it is
used with, under the name of the field, in the order of first mention.  Then
each demand is checked, and the first that is not met is reported.  Comparators
are collected as written, also where the literal stands in front.
-/

namespace RecordCondition

/-- What is reported to whoever wrote a condition. -/
inductive ConditionError
  | unparsed (e : ParseError)
  | ungrammatical (e : GrammarError)
  | limit (e : LimitError)
  | unknownField (field : String)
  | invalidValue (field value : String) (e : FieldError)
  | invalidOperator (field value : String)
  /-- A condition that passed every check and yet could not be built. -/
  | unbuilt (e : BuildError)
  deriving DecidableEq, Repr

def ConditionError.message : ConditionError → String
  | .unparsed e => s!"Invalid syntax: {e.message}"
  | .ungrammatical e => s!"Invalid syntax: {e.message}"
  | .limit e => s!"Invalid syntax: {e.message}"
  | .unknownField field => s!"{field} does not exist"
  | .invalidValue field value e => s!"Invalid data ({field}, {value}): {e.message}"
  | .invalidOperator field value => s!"Invalid operator between {field} and {value}"
  | .unbuilt e => e.message

/-- A value that a field is compared with, and how. -/
structure Demand where
  value : String
  comparator : Comparator
  deriving DecidableEq, Repr

/-- Demands by field, fields in the order of first mention. -/
abbrev Demands : Type := List (String × List Demand)

namespace Demands

def record (field : String) (demand : Demand) : Demands → Demands
  | [] => [(field, [demand])]
  | (name, demands) :: others =>
      if name = field then (name, demands ++ [demand]) :: others
      else (name, demands) :: record field demand others

def recordComparison (demands : Demands) (comparison : Comparison) : Demands :=
  demands.record comparison.field ⟨comparison.value, comparison.comparator⟩

def recordAll (demands : Demands) (comparisons : List Comparison) : Demands :=
  comparisons.foldl recordComparison demands

end Demands

/-- Collects demands, beginning anew with each expression. -/
def collector : Visitor Demands ConditionError Unit where
  enter _ := []
  junction _ _ := pure ()
  comparison pairs := modify fun demands => demands.recordAll pairs
  refuse := .ungrammatical

variable {R : Type}

/-- The first of some demands that a field does not meet; the value is checked
before the comparator. -/
def Field.checkDemands (field : Field R) (name : String) :
    List Demand → Except ConditionError Unit
  | [] => .ok ()
  | demand :: demands =>
      match field.clean demand.value with
      | .error e => .error (.invalidValue name demand.value e)
      | .ok _ =>
          if field.operators.contains demand.comparator then
            checkDemands field name demands
          else
            .error (.invalidOperator name demand.value)

namespace Registry

variable (registry : Registry R)

def checkDemands : Demands → Except ConditionError Unit
  | [] => .ok ()
  | (name, demands) :: others =>
      match registry.get? name with
      | none => .error (.unknownField name)
      | some field =>
          if field.isIgnored then
            checkDemands others
          else
            match field.checkDemands name demands with
            | .error e => .error e
            | .ok () => checkDemands others

/-- Validates an expression with what was collected before, and answers also
what is collected now.  A walk that fails leaves its demands unchecked. -/
def validateAfter (collected : Demands) (e : Expr) : Except ConditionError Unit × Demands :=
  match collector.walk e collected with
  | (.error e, demands) => (.error e, demands)
  | (.ok (), demands) => (registry.checkDemands demands, demands)

def validate (e : Expr) : Except ConditionError Unit :=
  (registry.validateAfter [] e).1

/-- Validates expressions one after the other, each after what the one before it
left behind. -/
def validateAll : Demands → List Expr → List (Except ConditionError Unit)
  | _, [] => []
  | collected, e :: rest =>
      let (result, collected) := registry.validateAfter collected e
      result :: validateAll collected rest

end Registry

end RecordCondition
