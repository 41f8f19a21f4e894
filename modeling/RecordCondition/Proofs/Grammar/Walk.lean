import RecordCondition.Grammar

/-!
# One step of the walk

What a visitor returns for an expression and the state that it is left in, from
what it does for the parts.  The later modules follow a walk by these equations
and do not open the monad again.
-/

namespace RecordCondition.Visitor

variable {σ ε α : Type} (visitor : Visitor σ ε α)

theorem run_junction (op : Junction) (values : List Expr) (state : σ) :
    (visitor.condition (.junction op values)).run state =
      match (visitor.conditions values).run state with
      | (.ok outputs, after) => (visitor.junction op outputs).run after
      | (.error e, after) => (.error e, after) := by
  rw [condition]
  change (ExceptT.bind (visitor.conditions values) _).run state = _
  simp only [ExceptT.bind, ExceptT.run, ExceptT.mk, bind, StateT.bind]
  cases visitor.conditions values state with
  | mk result after => cases result <;> rfl

theorem run_compare (left : Expr) (relations : List Relation) (operands : List Expr)
    (state : σ) :
    (visitor.condition (.compare left relations operands)).run state =
      match Comparison.pairs left relations operands with
      | .ok pairs => (visitor.comparison pairs).run state
      | .error e => (.error (visitor.refuse e), state) := by
  rw [condition]
  cases Comparison.pairs left relations operands <;> rfl

theorem run_conditions_cons (value : Expr) (values : List Expr) (state : σ) :
    (visitor.conditions (value :: values)).run state =
      match (visitor.condition value).run state with
      | (.ok output, after) =>
          match (visitor.conditions values).run after with
          | (.ok outputs, last) => (.ok (output :: outputs), last)
          | (.error e, last) => (.error e, last)
      | (.error e, after) => (.error e, after) := by
  rw [conditions]
  change (ExceptT.bind (visitor.condition value) _).run state = _
  simp only [ExceptT.bind, ExceptT.run, ExceptT.mk, bind, StateT.bind]
  cases visitor.condition value state with
  | mk result after =>
      cases result with
      | error e => rfl
      | ok output =>
          change (ExceptT.bind (visitor.conditions values) _).run after = _
          simp only [ExceptT.bind, ExceptT.run, ExceptT.mk, bind, StateT.bind]
          cases visitor.conditions values after with
          | mk result last => cases result <;> rfl

end RecordCondition.Visitor
