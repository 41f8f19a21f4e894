import RecordCondition.Validation

/-!
# Conditions

From text to predicate: line breaks become spaces, the text is held against the
limits, read, validated against a registry and built.
-/

namespace RecordCondition

structure Condition where
  text : String
  expr : Expr

/-- Replaces every line break by a space; a carriage return and the line feed
after it are one break. -/
def collapseChars : List Char → List Char
  | '\r' :: '\n' :: rest => ' ' :: collapseChars rest
  | c :: rest => (if c = '\r' || c = '\n' then ' ' else c) :: collapseChars rest
  | [] => []

def collapseLines (text : String) : String :=
  String.ofList (collapseChars text.toList)

namespace Condition

def parse (limits : Limits) (text : String) : Except ConditionError Condition := do
  let text := collapseLines text
  (limits.check text).mapError .limit
  let expr ← (Expr.parse text).mapError .unparsed
  .ok ⟨text, expr⟩

theorem parse_eq_ok_iff {limits : Limits} {text : String} {condition : Condition} :
    parse limits text = .ok condition ↔
      limits.check (collapseLines text) = .ok () ∧ condition.text = collapseLines text ∧
        Expr.parse (collapseLines text) = .ok condition.expr := by
  obtain ⟨found, expr⟩ := condition
  unfold parse
  dsimp only
  cases limits.check (collapseLines text) with
  | error e => exact ⟨nofun, nofun⟩
  | ok _ =>
      cases Expr.parse (collapseLines text) with
      | error e => exact ⟨nofun, nofun⟩
      | ok value =>
          constructor
          · intro hparse
            cases hparse
            exact ⟨rfl, rfl, rfl⟩
          · rintro ⟨-, rfl, hvalue⟩
            cases hvalue
            rfl

variable {R : Type}

def validate (condition : Condition) (registry : Registry R) : Except ConditionError Unit :=
  registry.validate condition.expr

/-- The predicate of a condition that is not validated first. -/
def build (condition : Condition) (registry : Registry R) : Except BuildError (Predicate R) :=
  registry.build condition.expr

def compile (condition : Condition) (registry : Registry R) :
    Except ConditionError (Predicate R) := do
  condition.validate registry
  (condition.build registry).mapError .unbuilt

end Condition

namespace Registry

variable {R : Type} (registry : Registry R)

def validateText (limits : Limits) (text : String) : Except ConditionError Unit := do
  let condition ← Condition.parse limits text
  condition.validate registry

def compileText (limits : Limits) (text : String) : Except ConditionError (Predicate R) := do
  let condition ← Condition.parse limits text
  condition.compile registry

end Registry

end RecordCondition
