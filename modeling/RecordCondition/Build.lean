import RecordCondition.Grammar
import RecordCondition.Predicate
import RecordCondition.Registry

/-!
# Building predicates

A condition is turned into a predicate bottom up.  Every comparison becomes the
conjunction of its pairs, with a literal in front moved to the back under the
converse comparator, and every junction joins its values in the order in which
they are written.  Nothing but the grammar and the fields themselves is checked.
-/

namespace RecordCondition

inductive BuildError
  | grammar (e : GrammarError)
  | unknownField (field : String)
  | unusable (field value : String) (e : FieldError)
  deriving DecidableEq, Repr

def BuildError.message : BuildError → String
  | .grammar e => e.message
  | .unknownField field => s!"{field} does not exist"
  | .unusable field value e => s!"cannot filter {field} by {value}: {e.message}"

/-- Predicates joined by a junction from the left. -/
def Predicate.joinAll {R : Type} (op : Junction) (predicates : List (Predicate R)) :
    Predicate R :=
  match op with
  | .and => predicates.foldl .both .empty
  | .or => predicates.foldl .either .empty

namespace Registry

variable {R : Type} (registry : Registry R)

/-- The predicate of a single comparison. -/
def buildComparison (comparison : Comparison) : Except BuildError (Predicate R) :=
  let oriented := comparison.reorient
  let name := oriented.left.display
  let value := oriented.right.display
  match registry.get? name with
  | none => .error (.unknownField name)
  | some field =>
      match field.filter oriented.comparator.lookup value with
      | .error e => .error (.unusable name value e)
      | .ok holds =>
          let leaf : Predicate R := .leaf ⟨name, oriented.comparator.lookup, value, holds⟩
          .ok (if oriented.comparator.negated then leaf.negate else leaf)

/-- The conjunction of some comparisons, added to a predicate from the left. -/
def buildPairs : Predicate R → List Comparison → Except BuildError (Predicate R)
  | predicate, [] => .ok predicate
  | predicate, comparison :: comparisons =>
      match registry.buildComparison comparison with
      | .error e => .error e
      | .ok next => buildPairs (predicate.both next) comparisons

/-- A builder remembers nothing from one visit to the next. -/
def builder : Visitor Unit BuildError (Predicate R) where
  enter state := state
  junction op predicates := pure (.joinAll op predicates)
  comparison pairs :=
    match registry.buildPairs .empty pairs with
    | .ok predicate => pure predicate
    | .error e => throw e
  refuse := .grammar

def build (e : Expr) : Except BuildError (Predicate R) :=
  (registry.builder.walk e ()).1

/-- Builds expressions one after the other with one builder. -/
def buildAll (es : List Expr) : List (Except BuildError (Predicate R)) :=
  (registry.builder.walkAll () es).map Prod.fst

end Registry

end RecordCondition
