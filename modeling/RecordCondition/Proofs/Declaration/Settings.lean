import RecordCondition.Annotation
import Mathlib.Data.List.Induction

/-!
# Settings of several annotations

The items of an annotation are added to settings one by one, and the settings of
several annotations are folded into each other.  Both come to the same: the settings
of a field are those of all of its items in a row, wherever one annotation ends and
the next begins.
-/

namespace RecordCondition

namespace Annotation

/-! ## What items say -/

def Item.rename? : Item → Option String
  | .rename name => some name
  | _ => none

def Item.operatorNames : Item → List String
  | .operators names => names
  | _ => []

def Item.isOperators : Item → Bool
  | .operators _ => true
  | _ => false

namespace Settings

theorem merge_add (settings other : Settings) (item : Item) :
    settings.merge (other.add item) = (settings.merge other).add item := by
  cases item with
  | rename name => rfl
  | operators names => simp [merge, add]
  | exclude => simp [merge, add]
  | ignore => simp [merge, add]

theorem foldl_add (settings : Settings) (items : List Item) :
    items.foldl add settings = settings.merge (ofItems items) := by
  induction items using List.reverseRecOn with
  | nil => simp [ofItems, merge]
  | append_singleton items item ih =>
      have hlast : ofItems (items ++ [item]) = (ofItems items).add item := by
        simp only [ofItems, List.foldl_append, List.foldl_cons, List.foldl_nil]
      rw [List.foldl_append, List.foldl_cons, List.foldl_nil, ih, hlast, merge_add]

theorem ofItems_cons (item : Item) (items : List Item) :
    ofItems (item :: items) = (add {} item).merge (ofItems items) := by
  rw [← foldl_add, ofItems, List.foldl_cons]

theorem ofItems_name (items : List Item) :
    (ofItems items).name = (items.filterMap Item.rename?).getLast? := by
  induction items with
  | nil => rfl
  | cons item items ih =>
      rw [ofItems_cons, merge, ih]
      cases item with
      | rename name =>
          rw [List.filterMap_cons_some (show Item.rename? (.rename name) = some name from rfl),
            List.getLast?_cons]
          cases (items.filterMap Item.rename?).getLast? <;> rfl
      | _ => exact Option.or_none

theorem ofItems_operators (items : List Item) :
    (ofItems items).operators = items.flatMap Item.operatorNames := by
  induction items with
  | nil => rfl
  | cons item items ih =>
      rw [ofItems_cons, merge, ih, List.flatMap_cons]
      cases item <;> rfl

theorem ofItems_excluded (items : List Item) :
    (ofItems items).excluded = decide (.exclude ∈ items) := by
  induction items with
  | nil => rfl
  | cons item items ih =>
      rw [ofItems_cons, merge, ih]
      cases item <;> simp [add]

theorem ofItems_ignored (items : List Item) :
    (ofItems items).ignored = decide (.ignore ∈ items) := by
  induction items with
  | nil => rfl
  | cons item items ih =>
      rw [ofItems_cons, merge, ih]
      cases item <;> simp [add]

end Settings

/-! ## Annotations one after the other -/

/-- Every annotation can be read. -/
def Legible (annotations : List String) : Prop :=
  ∀ text ∈ annotations, ∃ found, items text = .ok found

/-- The items of the annotations that can be read. -/
def listed (annotations : List String) : List Item :=
  annotations.flatMap fun text => (items text).toOption.getD []

theorem Legible.nil : Legible [] := by
  intro text hmem
  cases hmem

theorem legible_cons_iff {text : String} {annotations : List String} :
    Legible (text :: annotations) ↔
      (∃ found, items text = .ok found) ∧ Legible annotations :=
  List.forall_mem_cons

theorem Legible.cons {text : String} {found : List Item}
    (hfound : items text = .ok found) {annotations : List String}
    (hrest : Legible annotations) : Legible (text :: annotations) :=
  legible_cons_iff.mpr ⟨⟨found, hfound⟩, hrest⟩

instance (annotations : List String) : Decidable (Legible annotations) :=
  decidable_of_iff (∀ text ∈ annotations, (items text).isOk = true)
    (forall₂_congr fun text _ => by cases items text <;> simp [Except.isOk, Except.toBool])

theorem listed_cons {text : String} {found : List Item}
    (hfound : items text = .ok found) (annotations : List String) :
    listed (text :: annotations) = found ++ listed annotations := by
  rw [listed, List.flatMap_cons, hfound]
  rfl

namespace Settings

theorem readAfter_of_legible {annotations : List String} (hlegible : Legible annotations)
    (settings : Settings) :
    readAfter settings annotations = .ok (settings.merge (ofItems (listed annotations))) := by
  induction annotations generalizing settings with
  | nil => rw [readAfter, listed, List.flatMap_nil, ← foldl_add, List.foldl_nil]
  | cons text annotations ih =>
      obtain ⟨⟨found, hfound⟩, hrest⟩ := legible_cons_iff.mp hlegible
      rw [readAfter, hfound, listed_cons hfound]
      simp only [ih hrest]
      rw [← foldl_add, ← foldl_add, ← foldl_add, List.foldl_append]

theorem legible_of_readAfter {annotations : List String} {settings result : Settings}
    (hread : readAfter settings annotations = .ok result) : Legible annotations := by
  induction annotations generalizing settings with
  | nil => exact Legible.nil
  | cons text annotations ih =>
      rw [readAfter] at hread
      cases hfound : items text with
      | error e =>
          rw [hfound] at hread
          cases hread
      | ok found =>
          rw [hfound] at hread
          exact .cons hfound (ih hread)

/-- The settings of a field are those of its items in a row. -/
theorem read_eq_ok_iff {annotations : List String} {result : Settings} :
    read annotations = .ok result ↔
      Legible annotations ∧ result = ofItems (listed annotations) := by
  have hread (hlegible : Legible annotations) :
      read annotations = .ok (ofItems (listed annotations)) := by
    rw [read, readAfter_of_legible hlegible, ← foldl_add, ofItems]
  constructor
  · intro hresult
    have hlegible := legible_of_readAfter hresult
    rw [hread hlegible] at hresult
    exact ⟨hlegible, (Except.ok.inj hresult).symm⟩
  · intro hresult
    rw [hread hresult.1, hresult.2]

end Settings

end Annotation

end RecordCondition
