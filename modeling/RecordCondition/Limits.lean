import RecordCondition.Nesting

/-!
# Limits on condition text

Conditions come from people, so the size and the nesting of their text are
bounded before it is read.  The length is counted in characters.
-/

namespace RecordCondition

structure Limits where
  maxLength : Nat := 1000
  maxDepth : Nat := 32
  deriving DecidableEq, Repr

inductive LimitError
  | tooLong (length limit : Nat)
  | tooDeep (limit : Nat)
  deriving DecidableEq, Repr

def LimitError.message : LimitError → String
  | .tooLong length limit =>
      s!"condition is {length} characters long, the limit is {limit}"
  | .tooDeep limit => s!"condition nests deeper than {limit} levels"

def Limits.check (limits : Limits) (text : String) : Except LimitError Unit :=
  if limits.maxLength < text.length then
    .error (.tooLong text.length limits.maxLength)
  else if limits.maxDepth < nestingDepth text then
    .error (.tooDeep limits.maxDepth)
  else
    .ok ()

theorem Limits.check_eq_ok_iff {limits : Limits} {text : String} :
    limits.check text = .ok () ↔
      text.length ≤ limits.maxLength ∧ nestingDepth text ≤ limits.maxDepth := by
  unfold Limits.check
  split
  · simp only [reduceCtorEq, false_iff]
    omega
  · split
    · simp only [reduceCtorEq, false_iff]
      omega
    · simp only [true_iff]
      omega

theorem Limits.check_eq_tooDeep_iff {limits : Limits} {text : String} :
    limits.check text = .error (.tooDeep limits.maxDepth) ↔
      text.length ≤ limits.maxLength ∧ limits.maxDepth < nestingDepth text := by
  unfold Limits.check
  split
  · simp only [Except.error.injEq, reduceCtorEq, false_iff]
    omega
  · split
    · simp only [true_iff]
      omega
    · simp only [reduceCtorEq, false_iff]
      omega

end RecordCondition
