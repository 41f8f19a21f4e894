import RecordCondition.Declaration
import RecordCondition.TextRecord

/-!
# Tagged values

A record type that holds a value of any scalar type under a label.  The label
has no annotation, so it can be compared for equality alone.
-/

namespace RecordCondition

namespace Portfolio

structure Tagged (type : ScalarType) where
  label : String
  value : type.Value

namespace Tagged

variable (type : ScalarType)

def fields : List (DeclaredField × Column (Tagged type)) :=
  [(⟨"label", []⟩, ⟨.text, fun tagged => .one tagged.label⟩),
    (⟨"value", ["condition(op(lt, gt))"]⟩, ⟨type, fun tagged => .one tagged.value⟩)]

def registry : Except DeclarationError (Registry (Tagged type)) :=
  Registry.ofDeclared (fields type)

/-- The tagged value that a record written as text describes. -/
def ofText? (record : TextRecord) : Option (Tagged type) := do
  let label ← record.scalar? .text "label"
  let value ← record.scalar? type "value"
  pure ⟨label, value⟩

end Tagged

end Portfolio

end RecordCondition
