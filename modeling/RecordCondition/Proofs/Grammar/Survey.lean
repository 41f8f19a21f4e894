import RecordCondition.Grammar

/-!
# What a walk meets

The comparisons of an expression in the order in which a walk comes upon them,
up to the first violation of the grammar.  Both passes over a condition can be
told from its survey, though they do different things on the way.
-/

namespace RecordCondition

structure Survey where
  comparisons : List Comparison := []
  violation : Option GrammarError := none

/-- One survey after another, which is not begun once the grammar is violated. -/
def Survey.followedBy (first second : Survey) : Survey :=
  match first.violation with
  | some _ => first
  | none => ⟨first.comparisons ++ second.comparisons, second.violation⟩

def Survey.ofPairs : Except GrammarError (List Comparison) → Survey
  | .ok pairs => ⟨pairs, none⟩
  | .error e => ⟨[], some e⟩

mutual

def Expr.survey : Expr → Survey
  | .junction _ values => Expr.surveyAll values
  | .compare left relations operands =>
      .ofPairs (Comparison.pairs left relations operands)
  | e => ⟨[], some e.conditionError⟩

def Expr.surveyAll : List Expr → Survey
  | [] => {}
  | value :: values => value.survey.followedBy (Expr.surveyAll values)

end

end RecordCondition
