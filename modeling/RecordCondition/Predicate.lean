import RecordCondition.Comparator

/-!
# Predicates

What a condition is compiled to: tests of single fields joined by conjunction,
disjunction and negation.  The empty predicate holds of everything and vanishes
when it is joined with another, so predicates can be gathered up from it.
Joining keeps runs of the same operation flat.
-/

namespace RecordCondition

structure Leaf (R : Type) where
  field : String
  lookup : Lookup
  value : String
  holds : R → Bool

inductive Predicate (R : Type)
  | empty
  | leaf (leaf : Leaf R)
  | not (predicate : Predicate R)
  | and (predicates : List (Predicate R))
  | or (predicates : List (Predicate R))

def Leaf.display {R : Type} (leaf : Leaf R) : String :=
  s!"{leaf.field}__{leaf.lookup.name}={leaf.value}"

namespace Predicate

variable {R : Type}

def isEmpty : Predicate R → Bool
  | .empty => true
  | _ => false

/-! ## Joining -/

/-- The parts that a conjunction keeps side by side. -/
def conjuncts : Predicate R → List (Predicate R)
  | .and predicates => predicates
  | predicate => [predicate]

def disjuncts : Predicate R → List (Predicate R)
  | .or predicates => predicates
  | predicate => [predicate]

/-- Both predicates must hold. -/
def both : Predicate R → Predicate R → Predicate R
  | .empty, right => right
  | left, .empty => left
  | left, right => .and (left.conjuncts ++ right.conjuncts)

/-- Either predicate must hold. -/
def either : Predicate R → Predicate R → Predicate R
  | .empty, right => right
  | left, .empty => left
  | left, right => .or (left.disjuncts ++ right.disjuncts)

def negate : Predicate R → Predicate R
  | .empty => .empty
  | .not predicate => predicate
  | predicate => .not predicate

@[simp] theorem both_empty_left (right : Predicate R) : both .empty right = right := by
  simp [both]

@[simp] theorem both_empty_right (left : Predicate R) : both left .empty = left := by
  cases left <;> simp [both]

@[simp] theorem either_empty_left (right : Predicate R) : either .empty right = right := by
  simp [either]

@[simp] theorem either_empty_right (left : Predicate R) : either left .empty = left := by
  cases left <;> simp [either]

/-! ## Meaning -/

mutual

def holds (record : R) : Predicate R → Bool
  | .empty => true
  | .leaf test => test.holds record
  | .not predicate => !predicate.holds record
  | .and predicates => allHold record predicates
  | .or predicates => anyHolds record predicates

def allHold (record : R) : List (Predicate R) → Bool
  | [] => true
  | predicate :: predicates => predicate.holds record && allHold record predicates

def anyHolds (record : R) : List (Predicate R) → Bool
  | [] => false
  | predicate :: predicates => predicate.holds record || anyHolds record predicates

end

/-- The records of which a predicate holds, in their order. -/
def keep (predicate : Predicate R) (records : List R) : List R :=
  records.filter fun record => predicate.holds record

/-! ## Leaves and text -/

mutual

/-- Every leaf from left to right. -/
def leaves : Predicate R → List (Leaf R)
  | .empty => []
  | .leaf test => [test]
  | .not predicate => predicate.leaves
  | .and predicates | .or predicates => leavesOf predicates

def leavesOf : List (Predicate R) → List (Leaf R)
  | [] => []
  | predicate :: predicates => predicate.leaves ++ leavesOf predicates

end

mutual

def display : Predicate R → String
  | .empty => "()"
  | .leaf test => test.display
  | .not (.leaf test) => "NOT (" ++ test.display ++ ")"
  | .not predicate => "NOT " ++ predicate.display
  | .and predicates => "(" ++ " AND ".intercalate (displays predicates) ++ ")"
  | .or predicates => "(" ++ " OR ".intercalate (displays predicates) ++ ")"

def displays : List (Predicate R) → List String
  | [] => []
  | predicate :: predicates => predicate.display :: displays predicates

end

/-- The text of a predicate among other values. -/
def describe (predicate : Predicate R) : String :=
  s!"Predicate({predicate.display})"

def describeAll (predicates : List (Predicate R)) : String :=
  "[" ++ ", ".intercalate (predicates.map describe) ++ "]"

end Predicate

end RecordCondition
