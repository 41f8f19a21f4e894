import RecordCondition.Grammar

/-!
# Traces of the walk

A visitor that only records what it is shown.  The output of a visit is the
place of its event in the record, so the record of a junction points to the
records of its values.
-/

namespace RecordCondition

inductive Event
  | enter
  | comparison (pairs : List Comparison)
  | junction (op : Junction) (values : List Nat)
  deriving DecidableEq, Repr

abbrev Trace : Type := List Event

/-- Records an event at the end and answers its place. -/
def Trace.record (event : Event) : ExceptT GrammarError (StateM Trace) Nat := do
  let trace ← get
  set (trace ++ [event])
  pure trace.length

def Visitor.recorder : Visitor Trace GrammarError Nat where
  enter trace := trace ++ [.enter]
  junction op values := Trace.record (.junction op values)
  comparison pairs := Trace.record (.comparison pairs)
  refuse e := e

/-- The walk of an expression with nothing recorded before it. -/
def Expr.trace (e : Expr) : Except GrammarError Nat × Trace :=
  Visitor.recorder.walk e []

end RecordCondition
