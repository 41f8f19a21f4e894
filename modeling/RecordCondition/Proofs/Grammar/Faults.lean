import RecordCondition.Proofs.Expr.Induction
import RecordCondition.Proofs.Grammar.Survey

/-!
# The faults of an expression

Which expressions are no conditions, told from each of their nodes alone.  The
nodes are listed in post-order, every junction after its values; what a
comparison has as operands are no nodes of their own.  The first node with a
fault names the fault of the whole expression.

The pairs of a comparison are its neighbouring operands with the relation
between them, as far as these are operands and comparators; in a condition they
all are.
-/

namespace RecordCondition

/-! ## Single nodes -/

def Expr.operandFault (e : Expr) : Option GrammarError :=
  match e with
  | .name _ | .constant _ => none
  | .junction .. | .compare .. => some (.nestedOperand e.kind)
  | _ => some (.disallowed e.kind)

def Relation.fault (relation : Relation) : Option GrammarError :=
  match relation with
  | .is | .isNot => some (.disallowed relation.kind)
  | _ => none

/-- The faults of each relation and of the operand behind it, in turn. -/
def stepFaults (relations : List Relation) (operands : List Expr) :
    List (Option GrammarError) :=
  (relations.zip operands).flatMap fun (relation, operand) =>
    [relation.fault, operand.operandFault]

/-- What is wrong with a node, whatever stands inside a junction. -/
def Expr.fault (e : Expr) : Option GrammarError :=
  match e with
  | .junction .. => none
  | .compare left relations operands =>
      if relations = [] ∨ relations.length ≠ operands.length then
        some (.misaligned relations.length (operands.length + 1))
      else
        (left.operandFault :: stepFaults relations operands).findSome? id
  | .name _ | .constant _ => some (.bareOperand e.kind)
  | _ => some (.disallowed e.kind)

@[simp] theorem Expr.fault_junction (op : Junction) (values : List Expr) :
    (Expr.junction op values).fault = none := rfl

def Expr.operand? : Expr → Option Operand
  | .name id => some (.identifier id)
  | .constant value => some (.literal value)
  | _ => none

/-- The relations of a comparison, each between its two neighbours. -/
def chainSteps (left : Expr) (relations : List Relation) (operands : List Expr) :
    List (Expr × Relation × Expr) :=
  (left :: operands).zip (relations.zip operands)

def Comparison.ofStep? : Expr × Relation × Expr → Option Comparison
  | (left, relation, right) => do
      let first ← left.operand?
      let comparator ← Comparator.ofRelation? relation
      let second ← right.operand?
      some ⟨first, comparator, second⟩

def chainPairs (left : Expr) (relations : List Relation) (operands : List Expr) :
    List Comparison :=
  (chainSteps left relations operands).filterMap Comparison.ofStep?

/-! ## Nodes in order -/

mutual

def Expr.postorder : Expr → List Expr
  | .junction op values => Expr.postorderAll values ++ [.junction op values]
  | e => [e]

def Expr.postorderAll : List Expr → List Expr
  | [] => []
  | value :: values => value.postorder ++ Expr.postorderAll values

end

/-- The relations of all comparisons between their neighbours, as they are written. -/
def Expr.steps (e : Expr) : List (Expr × Relation × Expr) :=
  e.postorder.flatMap fun node =>
    match node with
    | .compare left relations operands => chainSteps left relations operands
    | _ => []

def Expr.pairs (e : Expr) : List Comparison :=
  e.steps.filterMap Comparison.ofStep?

theorem Expr.postorderAll_eq_flatMap (values : List Expr) :
    Expr.postorderAll values = values.flatMap Expr.postorder := by
  induction values with
  | nil => rfl
  | cons value values ih => rw [Expr.postorderAll, ih, List.flatMap_cons]

theorem Expr.steps_junction (op : Junction) (values : List Expr) :
    (Expr.junction op values).steps = values.flatMap Expr.steps := by
  unfold Expr.steps
  simp only [Expr.postorder, Expr.postorderAll_eq_flatMap, List.flatMap_append,
    List.flatMap_assoc, List.flatMap_singleton, List.append_nil]

theorem Expr.steps_compare (left : Expr) (relations : List Relation)
    (operands : List Expr) :
    (Expr.compare left relations operands).steps = chainSteps left relations operands := by
  simp [Expr.steps, Expr.postorder]

theorem Expr.pairs_junction (op : Junction) (values : List Expr) :
    (Expr.junction op values).pairs = values.flatMap Expr.pairs := by
  unfold Expr.pairs
  rw [Expr.steps_junction, List.filterMap_flatMap]

theorem Expr.pairs_compare (left : Expr) (relations : List Relation)
    (operands : List Expr) :
    (Expr.compare left relations operands).pairs = chainPairs left relations operands := by
  rw [Expr.pairs, Expr.steps_compare, chainPairs]

/-! ## Chains -/

theorem Expr.operand_cases (e : Expr) :
    (∃ operand, e.operand? = some operand ∧ e.operandFault = none ∧
        Operand.ofExpr e = .ok operand) ∨
      e.operand? = none ∧
        ∃ error, e.operandFault = some error ∧ Operand.ofExpr e = .error error := by
  cases e <;> simp [Expr.operand?, Expr.operandFault, Operand.ofExpr, Expr.operandError]

theorem Relation.comparator_cases (relation : Relation) :
    (∃ comparator, Comparator.ofRelation? relation = some comparator ∧
        relation.fault = none ∧ Comparator.ofRelation relation = .ok comparator) ∨
      Comparator.ofRelation? relation = none ∧
        ∃ error, relation.fault = some error ∧
          Comparator.ofRelation relation = .error error := by
  cases relation <;> simp [Comparator.ofRelation?, Relation.fault, Comparator.ofRelation]

theorem neighbours_cons (left : Expr) (relation : Relation) (relations : List Relation)
    (operand : Expr) (operands : List Expr) :
    chainPairs left (relation :: relations) (operand :: operands) =
      (Comparison.ofStep? (left, relation, operand)).toList ++
        chainPairs operand relations operands := by
  simp only [chainPairs, chainSteps, List.zip_cons_cons, List.filterMap_cons]
  cases Comparison.ofStep? (left, relation, operand) <;> rfl

theorem links_eq {left : Expr} {first : Operand} (hleft : left.operand? = some first)
    (relations : List Relation) (operands : List Expr) :
    links first relations operands =
      match (stepFaults relations operands).findSome? id with
      | some error => .error error
      | none => .ok (chainPairs left relations operands) := by
  induction relations generalizing left first operands with
  | nil => simp [links, stepFaults, chainPairs, chainSteps]
  | cons relation relations ih =>
      cases operands with
      | nil => simp [links, stepFaults, chainPairs, chainSteps]
      | cons operand operands =>
          rw [links, neighbours_cons]
          simp only [stepFaults, List.zip_cons_cons, List.flatMap_cons, List.cons_append,
            List.nil_append, List.findSome?_cons, id_eq]
          rcases Relation.comparator_cases relation with
            ⟨comparator, hcomparator, hfault, hof⟩ | ⟨-, error, hfault, hof⟩
          · rcases Expr.operand_cases operand with
              ⟨right, hright, hsound, hread⟩ | ⟨-, error, hunsound, hread⟩
            · have hpair : Comparison.ofStep? (left, relation, operand) =
                  some ⟨first, comparator, right⟩ := by
                simp [Comparison.ofStep?, hleft, hcomparator, hright]
              have hrest := ih hright operands
              simp only [stepFaults] at hrest
              simp only [hof, hread, hfault, hsound, hpair, hrest, bind, Except.bind]
              cases ((relations.zip operands).flatMap _).findSome? id <;> rfl
            · simp [hof, hread, hfault, hunsound, bind, Except.bind]
          · simp [hof, hfault, bind, Except.bind]

/-- A comparison is split into its neighbouring pairs unless it is at fault. -/
theorem Comparison.pairs_eq (left : Expr) (relations : List Relation)
    (operands : List Expr) :
    Comparison.pairs left relations operands =
      match (Expr.compare left relations operands).fault with
      | some error => .error error
      | none => .ok (chainPairs left relations operands) := by
  unfold Comparison.pairs
  simp only [Expr.fault]
  by_cases hcount : relations = [] ∨ relations.length ≠ operands.length
  · have hmisaligned :
        (relations.isEmpty || decide (relations.length ≠ operands.length)) = true := by
      simpa using hcount
    rw [if_pos hmisaligned, if_pos hcount]
  · have haligned :
        ¬(relations.isEmpty || decide (relations.length ≠ operands.length)) = true := by
      simpa using hcount
    rw [if_neg haligned, if_neg hcount, List.findSome?_cons]
    rcases Expr.operand_cases left with ⟨first, hfirst, hsound, hread⟩ | ⟨-, error, hfault, hread⟩
    · simp only [hread, hsound, id_eq, bind, Except.bind]
      exact links_eq hfirst relations operands
    · simp [hread, hfault, bind, Except.bind]

/-! ## Conditions -/

theorem Expr.isOperand_iff (e : Expr) : e.IsOperand ↔ e.operandFault = none := by
  cases e <;> simp [Expr.IsOperand, Expr.operandFault]

theorem Relation.isSome_ofRelation?_iff (relation : Relation) :
    (Comparator.ofRelation? relation).isSome = true ↔ relation.fault = none := by
  cases relation <;> simp [Comparator.ofRelation?, Relation.fault]

theorem findSome?_stepFaults_eq_none_iff {relations : List Relation} {operands : List Expr}
    (hlength : relations.length = operands.length) :
    (stepFaults relations operands).findSome? id = none ↔
      (∀ relation ∈ relations, relation.fault = none) ∧
        ∀ operand ∈ operands, operand.operandFault = none := by
  induction relations generalizing operands with
  | nil =>
      obtain rfl := List.eq_nil_of_length_eq_zero hlength.symm
      simp [stepFaults]
  | cons relation relations ih =>
      cases operands with
      | nil => simp at hlength
      | cons operand operands =>
          have hrest := ih (Nat.succ.inj hlength)
          simp only [stepFaults] at hrest
          rw [stepFaults, List.zip_cons_cons, List.flatMap_cons, List.findSome?_append,
            Option.or_eq_none_iff, hrest]
          simp [and_assoc, and_left_comm]

theorem Expr.compare_conforms_iff_parts {left : Expr} {relations : List Relation}
    {operands : List Expr} :
    (Expr.compare left relations operands).Conforms ↔
      relations ≠ [] ∧ relations.length = operands.length ∧ left.IsOperand ∧
        (∀ relation ∈ relations, (Comparator.ofRelation? relation).isSome = true) ∧
        ∀ operand ∈ operands, operand.IsOperand := by
  constructor
  · rintro ⟨⟩
    exact ⟨‹_›, ‹_›, ‹_›, ‹_›, ‹_›⟩
  · rintro ⟨hsome, hlength, hleft, hrelations, hoperands⟩
    exact .compare hsome hlength hleft hrelations hoperands

theorem Expr.junction_conforms_iff (op : Junction) (values : List Expr) :
    (Expr.junction op values).Conforms ↔ ∀ value ∈ values, value.Conforms := by
  constructor
  · rintro ⟨hvalues⟩
    exact hvalues
  · exact .junction

theorem Expr.isSome_operand?_iff (e : Expr) : e.operand?.isSome = true ↔ e.IsOperand := by
  cases e <;> simp [Expr.operand?, Expr.IsOperand]

theorem Comparison.isSome_ofStep?_iff (left : Expr) (relation : Relation) (right : Expr) :
    (Comparison.ofStep? (left, relation, right)).isSome = true ↔
      left.IsOperand ∧ (Comparator.ofRelation? relation).isSome = true ∧ right.IsOperand := by
  rw [← Expr.isSome_operand?_iff, ← Expr.isSome_operand?_iff]
  simp only [Comparison.ofStep?]
  cases left.operand? <;> cases Comparator.ofRelation? relation <;>
    cases right.operand? <;> simp

/-- The operand in front of a chain without relations is in none of its steps. -/
theorem isSome_steps_iff {left : Expr} {relations : List Relation} {operands : List Expr}
    (hlength : relations.length = operands.length) :
    (left.IsOperand ∧
        ∀ step ∈ chainSteps left relations operands,
          (Comparison.ofStep? step).isSome = true) ↔
      left.IsOperand ∧
        (∀ relation ∈ relations, (Comparator.ofRelation? relation).isSome = true) ∧
        ∀ operand ∈ operands, operand.IsOperand := by
  induction relations generalizing left operands with
  | nil =>
      obtain rfl := List.eq_nil_of_length_eq_zero hlength.symm
      simp [chainSteps]
  | cons relation relations ih =>
      cases operands with
      | nil => cases hlength
      | cons operand operands =>
          have hrest := @ih operand operands (Nat.succ.inj hlength)
          have hsteps : chainSteps left (relation :: relations) (operand :: operands) =
              (left, relation, operand) :: chainSteps operand relations operands := rfl
          rw [hsteps, List.forall_mem_cons, List.forall_mem_cons, List.forall_mem_cons,
            Comparison.isSome_ofStep?_iff]
          constructor
          · rintro ⟨hleft, ⟨-, hrelation, hoperand⟩, hsteps⟩
            obtain ⟨-, hrelations, hoperands⟩ := hrest.mp ⟨hoperand, hsteps⟩
            exact ⟨hleft, ⟨hrelation, hrelations⟩, hoperand, hoperands⟩
          · rintro ⟨hleft, ⟨hrelation, hrelations⟩, hoperand, hoperands⟩
            exact ⟨hleft, ⟨hleft, hrelation, hoperand⟩,
              (hrest.mpr ⟨hoperand, hrelations, hoperands⟩).2⟩

/-- A chain is a condition when each of its relations makes a pair. -/
theorem Expr.compare_conforms_iff_steps {left : Expr} {relations : List Relation}
    {operands : List Expr} (hsome : relations ≠ [])
    (hlength : relations.length = operands.length) :
    (Expr.compare left relations operands).Conforms ↔
      ∀ step ∈ chainSteps left relations operands,
        (Comparison.ofStep? step).isSome = true := by
  rw [Expr.compare_conforms_iff_parts, ← isSome_steps_iff hlength]
  refine ⟨fun hparts => hparts.2.2.2, fun hsteps => ⟨hsome, hlength, ?_, hsteps⟩⟩
  cases relations with
  | nil => exact absurd rfl hsome
  | cons relation relations =>
      cases operands with
      | nil => cases hlength
      | cons operand operands =>
          have hfirst := hsteps (left, relation, operand) List.mem_cons_self
          exact ((Comparison.isSome_ofStep?_iff left relation operand).mp hfirst).1

theorem Expr.compare_conforms_iff (left : Expr) (relations : List Relation)
    (operands : List Expr) :
    (Expr.compare left relations operands).Conforms ↔
      (Expr.compare left relations operands).fault = none := by
  rw [Expr.compare_conforms_iff_parts, Expr.fault]
  by_cases hcount : relations = [] ∨ relations.length ≠ operands.length
  · rw [if_pos hcount]
    simp only [reduceCtorEq, iff_false]
    rintro ⟨hsome, hlength, -⟩
    exact hcount.elim hsome fun hne => hne hlength
  · rw [if_neg hcount]
    rw [not_or, Decidable.not_not] at hcount
    rw [List.findSome?_cons]
    simp only [hcount.1, hcount.2, Expr.isOperand_iff, Relation.isSome_ofRelation?_iff,
      ne_eq, not_false_eq_true, true_and, id_eq]
    cases left.operandFault with
    | none => simpa using (findSome?_stepFaults_eq_none_iff hcount.2).symm
    | some error => simp

theorem Expr.conforms_iff (e : Expr) :
    e.Conforms ↔ ∀ node ∈ e.postorder, node.fault = none := by
  induction e with
  | junction op values ih =>
      simp only [Expr.postorder, Expr.postorderAll_eq_flatMap, List.forall_mem_append,
        List.forall_mem_flatMap, List.forall_mem_singleton, Expr.fault_junction, and_true]
      rw [Expr.junction_conforms_iff]
      exact forall₂_congr ih
  | compare left relations operands _ _ =>
      rw [Expr.compare_conforms_iff]
      simp [Expr.postorder]
  | _ =>
      simp only [Expr.postorder, List.forall_mem_singleton, Expr.fault, reduceCtorEq,
        iff_false]
      rintro ⟨⟩

/-- Every relation of a condition stands between two operands and makes a pair. -/
theorem Expr.length_pairs_of_conforms {e : Expr} (hconforms : e.Conforms) :
    e.pairs.length = e.steps.length := by
  unfold Expr.pairs
  rw [List.filterMap_length_eq_length]
  intro step hstep
  obtain ⟨node, hnode, hmem⟩ := List.mem_flatMap.mp hstep
  have hfault := e.conforms_iff.mp hconforms node hnode
  cases node with
  | compare left relations operands =>
      rw [← Expr.compare_conforms_iff] at hfault
      obtain ⟨hsome, hlength, -⟩ := Expr.compare_conforms_iff_parts.mp hfault
      exact (Expr.compare_conforms_iff_steps hsome hlength).mp hfault step hmem
  | _ => cases hmem

/-! ## Surveys -/

theorem Survey.ofPairs_eq (left : Expr) (relations : List Relation) (operands : List Expr) :
    Survey.ofPairs (Comparison.pairs left relations operands) =
      match (Expr.compare left relations operands).fault with
      | some error => ⟨[], some error⟩
      | none => ⟨chainPairs left relations operands, none⟩ := by
  rw [Comparison.pairs_eq]
  cases (Expr.compare left relations operands).fault <;> rfl

theorem Expr.survey_of_conforms {e : Expr} (hconforms : e.Conforms) :
    e.survey = ⟨e.pairs, none⟩ := by
  induction e with
  | junction op values ih =>
      rw [Expr.survey, Expr.pairs_junction]
      rcases hconforms with ⟨hvalues⟩
      induction values with
      | nil => rfl
      | cons value values step =>
          rw [List.forall_mem_cons] at ih hvalues
          rw [Expr.surveyAll, ih.1 hvalues.1, step ih.2 hvalues.2]
          simp [Survey.followedBy]
  | compare left relations operands _ _ =>
      rw [Expr.compare_conforms_iff] at hconforms
      rw [Expr.survey, Survey.ofPairs_eq, hconforms, Expr.pairs_compare]
  | _ => rcases hconforms

theorem Expr.conforms_of_survey {e : Expr} (hsurvey : e.survey.violation = none) :
    e.Conforms := by
  induction e with
  | junction op values ih =>
      rw [Expr.survey] at hsurvey
      refine .junction ?_
      induction values with
      | nil => simp
      | cons value values step =>
          rw [List.forall_mem_cons] at ih ⊢
          rw [Expr.surveyAll, Survey.followedBy] at hsurvey
          cases hvalue : value.survey.violation with
          | some error => simp [hvalue] at hsurvey
          | none =>
              simp only [hvalue] at hsurvey
              exact ⟨ih.1 hvalue, step ih.2 hsurvey⟩
  | compare left relations operands _ _ =>
      rw [Expr.survey, Survey.ofPairs_eq] at hsurvey
      rw [Expr.compare_conforms_iff]
      cases hfault : (Expr.compare left relations operands).fault with
      | none => rfl
      | some error => simp [hfault] at hsurvey
  | _ => simp [Expr.survey] at hsurvey

end RecordCondition
