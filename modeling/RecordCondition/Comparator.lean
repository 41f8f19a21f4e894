import RecordCondition.Expr

/-!
# Comparators

The eight comparisons that a field may permit, the lookups that carry them out,
and sets of comparators.  Two of the relations that can be written, `is` and
`is not`, are no comparators.
-/

namespace RecordCondition

inductive Comparator
  | equal
  | notEqual
  | less
  | lessEqual
  | greater
  | greaterEqual
  | in
  | notIn
  deriving DecidableEq, Repr

/-- The tests that a field can carry out on its values. -/
inductive Lookup
  | exact
  | contains
  | less
  | lessEqual
  | greater
  | greaterEqual
  deriving DecidableEq, Repr

def Comparator.name : Comparator → String
  | .equal => "eq"
  | .notEqual => "ne"
  | .less => "lt"
  | .lessEqual => "lte"
  | .greater => "gt"
  | .greaterEqual => "gte"
  | .in => "in"
  | .notIn => "not_in"

def Lookup.name : Lookup → String
  | .exact => "exact"
  | .contains => "contains"
  | .less => "lt"
  | .lessEqual => "lte"
  | .greater => "gt"
  | .greaterEqual => "gte"

/-- Every comparator, in the order in which sets list them. -/
def Comparator.all : List Comparator :=
  [.equal, .notEqual, .less, .lessEqual, .greater, .greaterEqual, .in, .notIn]

theorem Comparator.mem_all (comparator : Comparator) : comparator ∈ Comparator.all := by
  cases comparator <;> decide

def Comparator.ofName? (name : String) : Option Comparator :=
  Comparator.all.find? fun comparator => comparator.name = name

theorem Comparator.ofName?_eq_some_iff {name : String} {comparator : Comparator} :
    Comparator.ofName? name = some comparator ↔ comparator.name = name := by
  constructor
  · intro hfound
    have hname := List.find?_some hfound
    exact of_decide_eq_true hname
  · intro hname
    subst hname
    cases comparator <;> rfl

def Comparator.names : List String :=
  Comparator.all.map Comparator.name

theorem Comparator.ofName?_eq_none_iff {name : String} :
    Comparator.ofName? name = none ↔ name ∉ Comparator.names := by
  constructor
  · intro hnone hmem
    obtain ⟨comparator, -, hname⟩ := List.mem_map.mp hmem
    rw [Comparator.ofName?_eq_some_iff.mpr hname] at hnone
    cases hnone
  · intro hunknown
    cases hfound : Comparator.ofName? name with
    | none => rfl
    | some comparator =>
        have hname := Comparator.ofName?_eq_some_iff.mp hfound
        exact absurd (List.mem_map.mpr ⟨comparator, comparator.mem_all, hname⟩) hunknown

def Comparator.ofRelation? : Relation → Option Comparator
  | .equal => some .equal
  | .notEqual => some .notEqual
  | .less => some .less
  | .lessEqual => some .lessEqual
  | .greater => some .greater
  | .greaterEqual => some .greaterEqual
  | .in => some .in
  | .notIn => some .notIn
  | .is | .isNot => none

/-- The relation that a comparator is written as. -/
def Comparator.relation : Comparator → Relation
  | .equal => .equal
  | .notEqual => .notEqual
  | .less => .less
  | .lessEqual => .lessEqual
  | .greater => .greater
  | .greaterEqual => .greaterEqual
  | .in => .in
  | .notIn => .notIn

theorem Comparator.ofRelation?_eq_some_iff {relation : Relation} {comparator : Comparator} :
    Comparator.ofRelation? relation = some comparator ↔ relation = comparator.relation := by
  cases relation <;> cases comparator <;> decide

@[simp] theorem Comparator.ofRelation?_relation (comparator : Comparator) :
    Comparator.ofRelation? comparator.relation = some comparator :=
  Comparator.ofRelation?_eq_some_iff.mpr rfl

/-- The comparator that means the same with the operands exchanged.  Only the
orderings have one other than themselves. -/
def Comparator.converse : Comparator → Comparator
  | .less => .greater
  | .greater => .less
  | .lessEqual => .greaterEqual
  | .greaterEqual => .lessEqual
  | comparator => comparator

@[simp] theorem Comparator.converse_converse (comparator : Comparator) :
    comparator.converse.converse = comparator := by
  cases comparator <;> rfl

def Comparator.lookup : Comparator → Lookup
  | .equal | .notEqual => .exact
  | .less => .less
  | .lessEqual => .lessEqual
  | .greater => .greater
  | .greaterEqual => .greaterEqual
  | .in | .notIn => .contains

/-- Whether the answer of the lookup is turned around. -/
def Comparator.negated : Comparator → Bool
  | .notEqual | .notIn => true
  | _ => false

/-! ## Sets -/

/-- A set of comparators, given by membership. -/
structure ComparatorSet where
  contains : Comparator → Bool

namespace ComparatorSet

def empty : ComparatorSet := ⟨fun _ => false⟩

def all : ComparatorSet := ⟨fun _ => true⟩

def insert (set : ComparatorSet) (comparator : Comparator) : ComparatorSet :=
  ⟨fun other => other = comparator || set.contains other⟩

def ofList (comparators : List Comparator) : ComparatorSet :=
  ⟨fun comparator => comparators.contains comparator⟩

/-- The members, in the order of `Comparator.all`. -/
def toList (set : ComparatorSet) : List Comparator :=
  Comparator.all.filter set.contains

def isEmpty (set : ComparatorSet) : Bool :=
  set.toList.isEmpty

def equality : ComparatorSet := ofList [.equal, .notEqual]

/-- For fields whose values are ordered. -/
def ordered : ComparatorSet :=
  ofList [.equal, .notEqual, .less, .lessEqual, .greater, .greaterEqual]

/-- For fields whose values are searched as text. -/
def textual : ComparatorSet := ofList [.equal, .notEqual, .in, .notIn]

def display (set : ComparatorSet) : String :=
  ", ".intercalate (set.toList.map Comparator.name)

@[simp] theorem mem_toList {set : ComparatorSet} {comparator : Comparator} :
    comparator ∈ set.toList ↔ set.contains comparator = true := by
  simp [toList, Comparator.mem_all]

@[ext] theorem ext_contains {left right : ComparatorSet}
    (heq : ∀ comparator, left.contains comparator = right.contains comparator) :
    left = right := by
  cases left
  cases right
  exact congrArg ComparatorSet.mk (funext heq)

@[simp] theorem contains_empty (comparator : Comparator) :
    empty.contains comparator = false := rfl

@[simp] theorem contains_all (comparator : Comparator) :
    all.contains comparator = true := rfl

@[simp] theorem contains_insert (set : ComparatorSet) (added comparator : Comparator) :
    (set.insert added).contains comparator =
      (decide (comparator = added) || set.contains comparator) := rfl

@[simp] theorem contains_ofList (comparators : List Comparator) (comparator : Comparator) :
    (ofList comparators).contains comparator = comparators.contains comparator := rfl

theorem eq_iff_toList_eq {left right : ComparatorSet} :
    left = right ↔ left.toList = right.toList := by
  constructor
  · rintro rfl
    rfl
  · intro heq
    ext comparator
    rw [Bool.eq_iff_iff, ← mem_toList, ← mem_toList, heq]

instance : DecidableEq ComparatorSet := fun _ _ =>
  decidable_of_iff _ eq_iff_toList_eq.symm

end ComparatorSet

end RecordCondition
