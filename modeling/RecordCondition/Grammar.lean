import RecordCondition.Comparison

/-!
# The grammar of conditions

An expression is a condition when it is built from junctions and comparisons
alone, with the eight comparators and with names and constants as operands.  The
walk below checks this from left to right and hands what it accepts to a
visitor, bottom up.  A visitor keeps a state, which survives a refusal.
-/

namespace RecordCondition

inductive GrammarError
  /-- A kind of expression, or a relation, that no condition contains. -/
  | disallowed (kind : String)
  /-- A comparison whose relations and operands do not line up. -/
  | misaligned (relations operands : Nat)
  /-- A junction or a comparison as an operand. -/
  | nestedOperand (kind : String)
  /-- A name or a constant where a comparison is expected. -/
  | bareOperand (kind : String)
  deriving DecidableEq, Repr

def GrammarError.message : GrammarError → String
  | .disallowed kind => kind
  | .misaligned relations operands =>
      s!"comparison has {relations} operators for {operands} operands"
  | .nestedOperand kind => s!"{kind} cannot be used as an operand"
  | .bareOperand kind => s!"expected a comparison, found {kind}"

/-! ## Comparisons -/

/-- The refusal of an expression as an operand. -/
def Expr.operandError (e : Expr) : GrammarError :=
  match e with
  | .junction .. | .compare .. => .nestedOperand e.kind
  | _ => .disallowed e.kind

def Operand.ofExpr : Expr → Except GrammarError Operand
  | .name id => .ok (.identifier id)
  | .constant value => .ok (.literal value)
  | e => .error e.operandError

def Comparator.ofRelation (relation : Relation) : Except GrammarError Comparator :=
  match Comparator.ofRelation? relation with
  | some comparator => .ok comparator
  | none => .error (.disallowed relation.kind)

/-- The links of a chain, each joining neighbouring operands. -/
def links (left : Operand) :
    List Relation → List Expr → Except GrammarError (List Comparison)
  | relation :: relations, operand :: operands => do
      let comparator ← Comparator.ofRelation relation
      let right ← Operand.ofExpr operand
      let rest ← links right relations operands
      .ok (⟨left, comparator, right⟩ :: rest)
  | _, _ => .ok []

/-- The neighbouring pairs of a chained comparison. -/
def Comparison.pairs (left : Expr) (relations : List Relation) (operands : List Expr) :
    Except GrammarError (List Comparison) :=
  if relations.isEmpty || relations.length ≠ operands.length then
    .error (.misaligned relations.length (operands.length + 1))
  else do
    let first ← Operand.ofExpr left
    links first relations operands

/-! ## The walk -/

/-- What receives the accepted parts of an expression.  The outputs for the
values of a junction are handed over in the order in which they are written. -/
structure Visitor (σ ε α : Type) where
  enter : σ → σ
  junction : Junction → List α → ExceptT ε (StateM σ) α
  comparison : List Comparison → ExceptT ε (StateM σ) α
  refuse : GrammarError → ε

/-- The refusal of an expression where a condition is expected. -/
def Expr.conditionError (e : Expr) : GrammarError :=
  match e with
  | .name _ | .constant _ => .bareOperand e.kind
  | _ => .disallowed e.kind

namespace Visitor

variable {σ ε α : Type} (visitor : Visitor σ ε α)

mutual

def condition : Expr → ExceptT ε (StateM σ) α
  | .junction op values => do
      let outputs ← conditions values
      visitor.junction op outputs
  | .compare left relations operands =>
      match Comparison.pairs left relations operands with
      | .ok pairs => visitor.comparison pairs
      | .error e => throw (visitor.refuse e)
  | e => throw (visitor.refuse e.conditionError)

def conditions : List Expr → ExceptT ε (StateM σ) (List α)
  | [] => pure []
  | value :: values => do
      let output ← condition value
      let outputs ← conditions values
      pure (output :: outputs)

end

/-- The output for a whole expression, and the state that the visitor is left
in.  Entering comes first, whatever the expression is. -/
def walk (e : Expr) (state : σ) : Except ε α × σ :=
  (visitor.condition e).run (visitor.enter state)

/-- What one visitor answers to expressions one after the other, each walked with
the state that the one before it left behind. -/
def walkAll : σ → List Expr → List (Except ε α × σ)
  | _, [] => []
  | state, e :: rest => visitor.walk e state :: walkAll (visitor.walk e state).2 rest

end Visitor

/-! ## The shape of conditions -/

/-- The expressions that may stand on either side of a comparator. -/
def Expr.IsOperand : Expr → Prop
  | .name _ | .constant _ => True
  | _ => False

/-- The expressions that are conditions. -/
inductive Expr.Conforms : Expr → Prop
  | junction {op : Junction} {values : List Expr} :
      (∀ value ∈ values, Conforms value) → Conforms (.junction op values)
  | compare {left : Expr} {relations : List Relation} {operands : List Expr} :
      relations ≠ [] → relations.length = operands.length → left.IsOperand →
      (∀ relation ∈ relations, (Comparator.ofRelation? relation).isSome) →
      (∀ operand ∈ operands, operand.IsOperand) →
      Conforms (.compare left relations operands)

end RecordCondition
