import Std.Data.TreeMap
import RecordCondition.Field

/-!
# Registries

The fields that a condition may name, listed by name in the order of code
points.  A later field of the same name replaces an earlier one.
-/

namespace RecordCondition

structure Registry (R : Type) where
  fields : Std.TreeMap String (Field R) := {}

namespace Registry

variable {R : Type}

def empty : Registry R := {}

def insert (registry : Registry R) (name : String) (field : Field R) : Registry R :=
  ⟨registry.fields.insert name field⟩

def ofList (fields : List (String × Field R)) : Registry R :=
  fields.foldl (fun registry entry => registry.insert entry.1 entry.2) empty

def get? (registry : Registry R) (name : String) : Option (Field R) :=
  registry.fields[name]?

def names (registry : Registry R) : List String :=
  registry.fields.keys

def size (registry : Registry R) : Nat :=
  registry.fields.size

def isEmpty (registry : Registry R) : Bool :=
  registry.fields.isEmpty

/-- One line for a field and one for each comparator that it permits. -/
def describe (registry : Registry R) : List String :=
  registry.fields.toList.flatMap fun (name, field) =>
    if field.isIgnored then
      [s!"{name} (ignored)"]
    else
      name :: field.operators.toList.map fun comparator => s!"{name}__{comparator.name}"

/-- The description with every line ended. -/
def describeText (registry : Registry R) : String :=
  String.join (registry.describe.map fun line => line ++ "\n")

@[simp] theorem get?_empty (name : String) : (empty : Registry R).get? name = none := by
  simp [empty, get?]

theorem get?_insert (registry : Registry R) (inserted name : String) (field : Field R) :
    (registry.insert inserted field).get? name =
      if inserted = name then some field else registry.get? name := by
  simp [insert, get?, Std.TreeMap.getElem?_insert]

end Registry

end RecordCondition
