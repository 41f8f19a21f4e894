import Mathlib.Data.List.Forall2

/-!
# Results

A pass over many things succeeds with all of its outputs or fails where the first of
them fails.  The failures of a pass are followed without its outputs, and two passes
are compared by what they answer.
-/

namespace RecordCondition

/-! ## Success -/

theorem mapM_eq_ok_iff {ε α β : Type} {f : α → Except ε β} {inputs : List α}
    {outputs : List β} :
    inputs.mapM f = .ok outputs ↔
      List.Forall₂ (fun input output => f input = .ok output) inputs outputs := by
  induction inputs generalizing outputs with
  | nil =>
      rw [List.mapM_nil, List.forall₂_nil_left_iff]
      exact ⟨fun heq => (Except.ok.inj heq).symm, fun heq => congrArg Except.ok heq.symm⟩
  | cons input inputs ih =>
      rw [List.mapM_cons]
      constructor
      · intro heq
        cases hhead : f input with
        | error e =>
            rw [hhead] at heq
            cases heq
        | ok output =>
            cases htail : inputs.mapM f with
            | error e =>
                rw [hhead, htail] at heq
                cases heq
            | ok rest =>
                rw [hhead, htail] at heq
                obtain rfl : output :: rest = outputs := Except.ok.inj heq
                exact .cons hhead (ih.mp htail)
      · intro hall
        cases hall with
        | cons hhead htail =>
            rw [hhead, ih.mpr htail]
            rfl

/-! ## The first of many -/

theorem findSome?_congr {α β : Type} {f g : α → Option β} {inputs : List α}
    (heq : ∀ input ∈ inputs, f input = g input) :
    inputs.findSome? f = inputs.findSome? g := by
  induction inputs with
  | nil => rfl
  | cons input inputs ih =>
      rw [List.forall_mem_cons] at heq
      rw [List.findSome?_cons, List.findSome?_cons, heq.1, ih heq.2]

theorem findSome?_flatMap {α β γ : Type} (f : β → Option γ) (g : α → List β)
    (inputs : List α) :
    (inputs.flatMap g).findSome? f = inputs.findSome? fun input => (g input).findSome? f := by
  induction inputs with
  | nil => rfl
  | cons input inputs ih =>
      rw [List.flatMap_cons, List.findSome?_append, ih, List.findSome?_cons]
      cases (g input).findSome? f <;> rfl

theorem findSome?_map_eq {α β γ : Type} {f : α → Option β} {g : β → γ} {inputs others : List α}
    (hsame : List.Forall₂ (fun input other => (f input).map g = (f other).map g)
      inputs others) :
    (inputs.findSome? f).map g = (others.findSome? f).map g := by
  induction hsame with
  | nil => rfl
  | @cons input other inputs others hinput _ ih =>
      rw [List.findSome?_cons, List.findSome?_cons]
      generalize f input = found, f other = next at hinput
      cases found with
      | none =>
          cases next with
          | none => exact ih
          | some _ => cases hinput
      | some _ =>
          cases next with
          | none => cases hinput
          | some _ => exact hinput

/-! ## Failure -/

def failure? {ε α : Type} : Except ε α → Option ε
  | .ok _ => none
  | .error e => some e

theorem failure?_eq_none_iff {ε α : Type} {result : Except ε α} :
    failure? result = none ↔ ∃ value, result = .ok value := by
  cases result <;> simp [failure?]

theorem failure?_eq_some_iff {ε α : Type} {result : Except ε α} {e : ε} :
    failure? result = some e ↔ result = .error e := by
  cases result <;> simp [failure?]

@[simp] theorem failure?_map {ε α β : Type} (f : α → β) (result : Except ε α) :
    failure? (result.map f) = failure? result := by
  cases result <;> rfl

theorem failure?_mapError {ε η α : Type} (f : ε → η) (result : Except ε α) :
    failure? (result.mapError f) = (failure? result).map f := by
  cases result <;> rfl

theorem eq_of_failure?_eq {ε : Type} {result other : Except ε Unit}
    (hfailure : failure? result = failure? other) : result = other := by
  cases result with
  | ok _ =>
      obtain ⟨_, hother⟩ := failure?_eq_none_iff.mp hfailure.symm
      exact hother.symm
  | error e => exact (failure?_eq_some_iff.mp hfailure.symm).symm

theorem failure?_mapM {ε α β : Type} (f : α → Except ε β) (inputs : List α) :
    failure? (inputs.mapM f) = inputs.findSome? fun input => failure? (f input) := by
  induction inputs with
  | nil => rfl
  | cons input inputs ih =>
      rw [List.mapM_cons, List.findSome?_cons, ← ih]
      cases f input with
      | error e => rfl
      | ok output => cases inputs.mapM f <;> rfl

/-! ## Agreement -/

/-- Both fail for the same reason, or both succeed with outputs that are alike. -/
inductive Agrees {ε α β : Type} (alike : α → β → Prop) : Except ε α → Except ε β → Prop
  | ok {output : α} {other : β} : alike output other → Agrees alike (.ok output) (.ok other)
  | error (e : ε) : Agrees alike (.error e) (.error e)

theorem Agrees.map {ε α β γ δ : Type} {alike : α → β → Prop} {same : γ → δ → Prop}
    {first : Except ε α} {second : Except ε β} {f : α → γ} {g : β → δ}
    (hagrees : Agrees alike first second)
    (hmap : ∀ output other, alike output other → same (f output) (g other)) :
    Agrees same (first.map f) (second.map g) := by
  cases hagrees with
  | ok halike => exact .ok (hmap _ _ halike)
  | error e => exact .error e

theorem Agrees.mapError {ε η α β : Type} {alike : α → β → Prop} {first : Except ε α}
    {second : Except ε β} (hagrees : Agrees alike first second) (f : ε → η) :
    Agrees alike (first.mapError f) (second.mapError f) := by
  cases hagrees with
  | ok halike => exact .ok halike
  | error e => exact .error (f e)

theorem Agrees.eq {ε α : Type} {first second : Except ε α} {alike : α → α → Prop}
    (hagrees : Agrees alike first second)
    (halike : ∀ output other, alike output other → output = other) : first = second := by
  cases hagrees with
  | ok hsame => rw [halike _ _ hsame]
  | error e => rfl

theorem Agrees.refl {ε α : Type} {alike : α → α → Prop} (halike : ∀ output, alike output output)
    (result : Except ε α) : Agrees alike result result := by
  cases result with
  | error e => exact .error e
  | ok output => exact .ok (halike output)

theorem Agrees.mapM {ε α β γ δ : Type} {alike : α → β → Prop} {f : γ → Except ε α}
    {g : δ → Except ε β} {inputs : List γ} {others : List δ}
    (hinputs : List.Forall₂ (fun input other => Agrees alike (f input) (g other))
      inputs others) :
    Agrees (List.Forall₂ alike) (inputs.mapM f) (others.mapM g) := by
  induction hinputs with
  | nil => exact .ok .nil
  | @cons input other inputs others hinput _ ih =>
      rw [List.mapM_cons, List.mapM_cons]
      generalize f input = first, g other = second at hinput
      generalize inputs.mapM f = firsts, others.mapM g = seconds at ih
      cases hinput with
      | error e => exact .error e
      | ok halike =>
          cases ih with
          | error e => exact .error e
          | ok hothers => exact .ok (.cons halike hothers)

theorem agrees_mapM {ε α β γ : Type} {alike : α → β → Prop} {f : γ → Except ε α}
    {g : γ → Except ε β} {inputs : List γ}
    (hinputs : ∀ input ∈ inputs, Agrees alike (f input) (g input)) :
    Agrees (List.Forall₂ alike) (inputs.mapM f) (inputs.mapM g) :=
  .mapM (List.forall₂_same.mpr hinputs)

end RecordCondition
