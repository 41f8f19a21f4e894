import RecordCondition.Grammar.Trace
import RecordCondition.Proofs.Grammar.Faults
import RecordCondition.Proofs.Grammar.Walk

/-!
# What a visitor is shown

A walk visits the nodes of an expression in post-order and stops at the first
that is at fault.  The output of a visit waits until the junction above takes it
up, so the outputs that a junction is given are the latest that wait, as many as
it has values, in the order in which they came.
-/

namespace RecordCondition.Visitor

variable {σ ε α : Type} {visitor : Visitor σ ε α}

structure NeverFails (visitor : Visitor σ ε α) : Prop where
  junction : ∀ op values state, ∃ output after,
    (visitor.junction op values).run state = (.ok output, after)
  comparison : ∀ pairs state, ∃ output after,
    (visitor.comparison pairs).run state = (.ok output, after)

/-- The visits of some nodes, one after the other, from a state and the outputs
that wait there to a later state and the outputs that wait then. -/
inductive Visits (visitor : Visitor σ ε α) :
    List Expr → σ → List α → σ → List α → Prop
  | nil (state : σ) (waiting : List α) : Visits visitor [] state waiting state waiting
  | comparison {left : Expr} {relations : List Relation} {operands nodes : List Expr}
      {state next last : σ} {waiting outputs : List α} {output : α} :
      (visitor.comparison (chainPairs left relations operands)).run state =
        (.ok output, next) →
      Visits visitor nodes next (waiting ++ [output]) last outputs →
      Visits visitor (.compare left relations operands :: nodes) state waiting last outputs
  | junction {op : Junction} {values nodes : List Expr} {state next last : σ}
      {waiting taken outputs : List α} {output : α} :
      taken.length = values.length →
      (visitor.junction op taken).run state = (.ok output, next) →
      Visits visitor nodes next (waiting ++ [output]) last outputs →
      Visits visitor (.junction op values :: nodes) state (waiting ++ taken) last outputs

theorem Visits.append {first second : List Expr} {state middle last : σ}
    {waiting outputs final : List α}
    (hfirst : visitor.Visits first state waiting middle outputs)
    (hsecond : visitor.Visits second middle outputs last final) :
    visitor.Visits (first ++ second) state waiting last final := by
  induction hfirst with
  | nil state waiting => exact hsecond
  | comparison hvisit _ ih => exact .comparison hvisit (ih hsecond)
  | junction htaken hvisit _ ih => exact .junction htaken hvisit (ih hsecond)

/-- What a walk through some nodes comes to: either none of them is at fault and
all are visited, or those before the first one at fault. -/
inductive Walks (visitor : Visitor σ ε α) (nodes : List Expr) (state : σ)
    (waiting : List α) : Except ε (List α) → σ → Prop
  | completed {outputs : List α} {last : σ} :
      (∀ node ∈ nodes, node.fault = none) →
      visitor.Visits nodes state waiting last (waiting ++ outputs) →
      Walks visitor nodes state waiting (.ok outputs) last
  | refused {before behind : List Expr} {offending : Expr} {violation : GrammarError}
      {outputs : List α} {last : σ} :
      nodes = before ++ offending :: behind →
      (∀ node ∈ before, node.fault = none) →
      offending.fault = some violation →
      visitor.Visits before state waiting last outputs →
      Walks visitor nodes state waiting (.error (visitor.refuse violation)) last

theorem Walks.append_of_refused {nodes : List Expr} {state last : σ} {waiting : List α}
    {error : ε} (hwalks : visitor.Walks nodes state waiting (.error error) last)
    (others : List Expr) :
    visitor.Walks (nodes ++ others) state waiting (.error error) last := by
  rcases hwalks with _ | @⟨before, behind, offending, _, _, _, hnodes, hbefore, hfault, hvisits⟩
  have hsplit : nodes ++ others = before ++ offending :: (behind ++ others) := by
    rw [hnodes, List.append_assoc, List.cons_append]
  exact .refused hsplit hbefore hfault hvisits

theorem Walks.append_of_completed {nodes others : List Expr} {state middle last : σ}
    {waiting outputs : List α} {result : Except ε (List α)}
    (hwalks : visitor.Walks nodes state waiting (.ok outputs) middle)
    (hothers : visitor.Walks others middle (waiting ++ outputs) result last) :
    visitor.Walks (nodes ++ others) state waiting (result.map (outputs ++ ·)) last := by
  rcases hwalks with ⟨hsound, hvisits⟩
  rcases hothers with ⟨hrest, hrestVisits⟩ |
    @⟨before, behind, offending, _, _, _, hothers, hbefore, hfault, hrestVisits⟩
  · refine .completed (List.forall_mem_append.mpr ⟨hsound, hrest⟩) ?_
    rw [← List.append_assoc]
    exact hvisits.append hrestVisits
  · have hsplit : nodes ++ others = (nodes ++ before) ++ offending :: behind := by
      rw [hothers, List.append_assoc]
    exact .refused hsplit (List.forall_mem_append.mpr ⟨hsound, hbefore⟩) hfault
      (hvisits.append hrestVisits)

/-- An expression that has no nodes inside it and is at fault is refused at once. -/
theorem Walks.of_fault {e : Expr} {violation : GrammarError}
    (hfault : e.fault = some violation) (state : σ) (waiting : List α) :
    visitor.Walks [e] state waiting (.error (visitor.refuse violation)) state :=
  .refused (List.nil_append [e]).symm (by simp) hfault (.nil state waiting)

theorem length_conditions {values : List Expr} {state after : σ} {outputs : List α}
    (hrun : (visitor.conditions values).run state = (.ok outputs, after)) :
    outputs.length = values.length := by
  induction values generalizing state after outputs with
  | nil =>
      obtain rfl := Except.ok.inj (Prod.mk.inj hrun).1
      rfl
  | cons value values ih =>
      rw [run_conditions_cons] at hrun
      cases hvalue : (visitor.condition value).run state with
      | mk result middle =>
          cases result with
          | error error =>
              rw [hvalue] at hrun
              cases hrun
          | ok output =>
              rw [hvalue] at hrun
              simp only at hrun
              cases hrest : (visitor.conditions values).run middle with
              | mk result last =>
                  cases result with
                  | error error =>
                      rw [hrest] at hrun
                      cases hrun
                  | ok rest =>
                      rw [hrest] at hrun
                      cases hrun
                      rw [List.length_cons, ih hrest, List.length_cons]

theorem walks_conditions {values : List Expr}
    (hvalues : ∀ value ∈ values, ∀ state waiting,
      visitor.Walks value.postorder state waiting
        (((visitor.condition value).run state).1.map fun output => [output])
        ((visitor.condition value).run state).2)
    (state : σ) (waiting : List α) :
    visitor.Walks (Expr.postorderAll values) state waiting
      ((visitor.conditions values).run state).1
      ((visitor.conditions values).run state).2 := by
  induction values generalizing state waiting with
  | nil =>
      refine .completed (by simp [Expr.postorderAll]) ?_
      rw [List.append_nil]
      exact .nil state waiting
  | cons value values ih =>
      rw [List.forall_mem_cons] at hvalues
      have hvalue := hvalues.1 state waiting
      rw [run_conditions_cons, Expr.postorderAll]
      cases hrun : (visitor.condition value).run state with
      | mk result middle =>
          rw [hrun] at hvalue
          cases result with
          | error error => exact hvalue.append_of_refused _
          | ok output =>
              have hrest := hvalue.append_of_completed
                (ih hvalues.2 middle (waiting ++ [output]))
              simp only
              cases hothers : (visitor.conditions values).run middle with
              | mk result last =>
                  rw [hothers] at hrest
                  cases result <;> exact hrest

/-- The walk below the root, from any state and with any outputs waiting. -/
theorem walks_condition (hvisitor : visitor.NeverFails) (e : Expr) (state : σ)
    (waiting : List α) :
    visitor.Walks e.postorder state waiting
      (((visitor.condition e).run state).1.map fun output => [output])
      ((visitor.condition e).run state).2 := by
  induction e generalizing state waiting with
  | junction op values ih =>
      have hvalues := walks_conditions ih state waiting
      rw [run_junction, Expr.postorder]
      cases hrun : (visitor.conditions values).run state with
      | mk result middle =>
          rw [hrun] at hvalues
          cases result with
          | error error => exact hvalues.append_of_refused _
          | ok outputs =>
              obtain ⟨output, last, houtput⟩ := hvisitor.junction op outputs middle
              simp only [houtput]
              rcases hvalues with ⟨hsound, hvisits⟩
              refine .completed ?_ (hvisits.append ?_)
              · exact List.forall_mem_append.mpr ⟨hsound, by simp⟩
              · exact .junction (length_conditions hrun) houtput (.nil last _)
  | compare left relations operands _ _ =>
      rw [run_compare, Comparison.pairs_eq, Expr.postorder]
      · cases hfault : (Expr.compare left relations operands).fault with
        | some violation => exact Walks.of_fault hfault state waiting
        | none =>
            obtain ⟨output, last, houtput⟩ :=
              hvisitor.comparison (chainPairs left relations operands) state
            simp only [houtput]
            refine .completed ?_ (.comparison houtput (.nil last _))
            simpa using hfault
      · simp
  | _ => exact Walks.of_fault rfl state waiting

/-- A visitor that refuses nothing gets a result exactly for conditions.  It is
shown all nodes in post-order, or those before the first one at fault, and that
fault is reported. -/
theorem walk_of_neverFails (hvisitor : visitor.NeverFails) (e : Expr) (state : σ) :
    ((∃ output after, visitor.walk e state = (.ok output, after)) ↔ e.Conforms) ∧
    (∀ output after, visitor.walk e state = (.ok output, after) →
      visitor.Visits e.postorder (visitor.enter state) [] after [output]) ∧
    ∀ error after, visitor.walk e state = (.error error, after) →
      ∃ before offending behind violation outputs,
        e.postorder = before ++ offending :: behind ∧
        (∀ node ∈ before, node.fault = none) ∧
        offending.fault = some violation ∧
        error = visitor.refuse violation ∧
        visitor.Visits before (visitor.enter state) [] after outputs := by
  have hwalks := walks_condition hvisitor e (visitor.enter state) []
  change visitor.Walks e.postorder (visitor.enter state) []
    ((visitor.walk e state).1.map fun output => [output]) (visitor.walk e state).2 at hwalks
  rw [Expr.conforms_iff]
  cases hwalk : visitor.walk e state with
  | mk result last =>
      rw [hwalk] at hwalks
      cases result with
      | ok output =>
          rcases hwalks with ⟨hsound, hvisits⟩
          refine ⟨⟨fun _ => hsound, fun _ => ⟨output, last, rfl⟩⟩, ?_, by simp⟩
          rintro _ _ ⟨⟩
          exact hvisits
      | error error =>
          rcases hwalks with _ | ⟨hnodes, hbefore, hfault, hvisits⟩
          refine ⟨⟨by simp, ?_⟩, by simp, ?_⟩
          · intro hsound
            rw [hnodes] at hsound
            have hoffending := hsound _ (List.mem_append_right _ List.mem_cons_self)
            rw [hfault] at hoffending
            exact absurd hoffending (by simp)
          · rintro _ _ ⟨⟩
            exact ⟨_, _, _, _, _, hnodes, hbefore, hfault, rfl, hvisits⟩

theorem recorder_neverFails : recorder.NeverFails where
  junction op values trace := ⟨trace.length, trace ++ [.junction op values], rfl⟩
  comparison pairs trace := ⟨trace.length, trace ++ [.comparison pairs], rfl⟩

/-- The chain and the empty group are visited.  Of the last comparison the relation
is named, which stands in front of the other fault. -/
theorem walk_of_neverFails_recorder :
    let e : Expr := .junction .or
      [.compare (.name "a") [.less, .lessEqual] [.constant (.number "1"), .name "b"],
        .junction .and [], .compare (.name "c") [.is] [.list []], .name "d"]
    let trace : Trace :=
      [.enter,
        .comparison [⟨.identifier "a", .less, .literal (.number "1")⟩,
          ⟨.literal (.number "1"), .lessEqual, .identifier "b"⟩],
        .junction .and []]
    recorder.NeverFails ∧
      recorder.walk e [] = (.error (.disallowed "Is"), trace) ∧
      ∃ before offending behind violation outputs,
        e.postorder = before ++ offending :: behind ∧
        (∀ node ∈ before, node.fault = none) ∧
        offending.fault = some violation ∧
        .disallowed "Is" = recorder.refuse violation ∧
        recorder.Visits before [.enter] [] trace outputs := by
  intro e trace
  have hwalk : recorder.walk e [] = (.error (.disallowed "Is"), trace) := rfl
  exact ⟨recorder_neverFails, hwalk,
    (walk_of_neverFails recorder_neverFails e []).2.2 _ _ hwalk⟩

end RecordCondition.Visitor
