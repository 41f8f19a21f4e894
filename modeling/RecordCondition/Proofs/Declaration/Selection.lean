import RecordCondition.Declaration
import RecordCondition.Proofs.Declaration.Settings
import RecordCondition.Proofs.Results

/-!
# What a declaration selects

A declared field that is not excluded is exposed under its last name, with equality
and the comparators that its items name.  The fields of a declaration are gone through
in order, so of several that are exposed under one name the last remains, and of
several reasons to fail the first is reported.

The member of a field with a marked name cannot be generated.  Such a field fails a
declaration even where every comparator is known, unless it is excluded.
-/

namespace RecordCondition

open Annotation

variable {R : Type}

/-! ## Names of comparators -/

/-- The names that no comparator has. -/
def unknownNames (names : List String) : List String :=
  names.filter fun name => name ∉ Comparator.names

theorem failure?_addOperators (operators : List Comparator) (names : List String) :
    failure? (addOperators operators names) =
      (unknownNames names).head?.map .unknownOperator := by
  induction names generalizing operators with
  | nil => rfl
  | cons name names ih =>
      rw [addOperators, unknownNames, List.filter_cons]
      cases hfound : Comparator.ofName? name with
      | none =>
          rw [if_pos (decide_eq_true (Comparator.ofName?_eq_none_iff.mp hfound))]
          rfl
      | some comparator =>
          have hknown : name ∈ Comparator.names := by
            by_contra hunknown
            rw [Comparator.ofName?_eq_none_iff.mpr hunknown] at hfound
            cases hfound
          rw [if_neg (by simp [hknown])]
          by_cases hcontains : operators.contains comparator = true
          · simp only [if_pos hcontains]
            exact ih operators
          · simp only [if_neg hcontains]
            exact ih (operators ++ [comparator])

theorem mem_of_addOperators {operators result : List Comparator} {names : List String}
    (hadd : addOperators operators names = .ok result) (comparator : Comparator) :
    comparator ∈ result ↔ comparator ∈ operators ∨ comparator.name ∈ names := by
  induction names generalizing operators with
  | nil =>
      obtain rfl := Except.ok.inj hadd
      simp
  | cons name names ih =>
      rw [addOperators] at hadd
      cases hfound : Comparator.ofName? name with
      | none =>
          rw [hfound] at hadd
          cases hadd
      | some found =>
          rw [hfound] at hadd
          have hname := Comparator.ofName?_eq_some_iff.mp hfound
          have hsame : comparator.name = name ↔ comparator = found := by
            rw [← Comparator.ofName?_eq_some_iff, hfound, Option.some_inj, eq_comm]
          rw [List.mem_cons, hsame]
          by_cases hcontains : operators.contains found = true
          · simp only [if_pos hcontains] at hadd
            rw [ih hadd]
            rw [List.contains_iff_mem] at hcontains
            constructor
            · intro hmem
              exact hmem.imp id Or.inr
            · rintro (hmem | rfl | hmem)
              · exact Or.inl hmem
              · exact Or.inl hcontains
              · exact Or.inr hmem
          · simp only [if_neg hcontains] at hadd
            rw [ih hadd, List.mem_append, List.mem_singleton, or_assoc]

/-! ## Single fields -/

namespace DeclaredField

variable (field : DeclaredField)

def items : List Item :=
  listed field.annotations

/-- The last of the names that a field is given, or else its own. -/
def exposedName : String :=
  (field.items.filterMap Item.rename?).getLast?.getD field.name

def operatorNames : List String :=
  field.items.flatMap Item.operatorNames

/-- Equality and whatever is named. -/
def permitted : ComparatorSet :=
  ⟨fun comparator =>
    ComparatorSet.equality.contains comparator || field.operatorNames.contains comparator.name⟩

def exposedField (column : Column R) : Field R :=
  let exposed : Field R := .typed { column := column, operators := field.permitted }
  if .ignore ∈ field.items then .over exposed else exposed

/-- What is wrong with a field. -/
def troubles : List DeclarationError :=
  if .exclude ∈ field.items then []
  else
    (unknownNames field.operatorNames).map .unknownOperator ++
      if field.isMarked then [.unnameable (field.name ++ "Field")] else []

variable {field}

theorem contains_permitted (comparator : Comparator) :
    field.permitted.contains comparator =
      (ComparatorSet.equality.contains comparator ||
        field.operatorNames.contains comparator.name) := rfl

theorem expose_of_legible (hlegible : Legible field.annotations) :
    field.expose =
      if .exclude ∈ field.items then .ok none
      else
        (addOperators [.equal, .notEqual] field.operatorNames).bind fun operators =>
          if field.isMarked then .error (.unnameable (field.name ++ "Field"))
          else .ok (some ⟨field.exposedName, field.name, operators,
            decide (.ignore ∈ field.items)⟩) := by
  have hoperators : (Settings.ofItems (listed field.annotations)).operators =
      field.operatorNames := Settings.ofItems_operators _
  rw [expose, Settings.read_eq_ok_iff.mpr ⟨hlegible, rfl⟩]
  simp only [Settings.ofItems_excluded, Settings.ofItems_name, hoperators,
    Settings.ofItems_ignored, decide_eq_true_eq]
  by_cases hexcluded : .exclude ∈ field.items
  · rw [if_pos hexcluded]
    exact if_pos hexcluded
  · rw [if_neg hexcluded]
    refine (if_neg hexcluded).trans ?_
    cases addOperators [.equal, .notEqual] field.operatorNames <;> rfl

theorem legible_of_expose {exposure? : Option Exposure} (hexpose : field.expose = .ok exposure?) :
    Legible field.annotations := by
  rw [expose] at hexpose
  cases hread : Settings.read field.annotations with
  | error fault =>
      rw [hread] at hexpose
      cases hexpose
  | ok settings => exact (Settings.read_eq_ok_iff.mp hread).1

theorem failure?_expose (hlegible : Legible field.annotations) :
    failure? field.expose = field.troubles.head? := by
  rw [expose_of_legible hlegible, troubles]
  split
  · rfl
  · have hfailure := failure?_addOperators [.equal, .notEqual] field.operatorNames
    rw [List.head?_append, List.head?_map, ← hfailure]
    cases addOperators [.equal, .notEqual] field.operatorNames with
    | error e => rfl
    | ok operators => cases field.isMarked <;> rfl

theorem ofList_eq_permitted {operators : List Comparator}
    (hadd : addOperators [.equal, .notEqual] field.operatorNames = .ok operators) :
    ComparatorSet.ofList operators = field.permitted := by
  ext comparator
  have hmem := mem_of_addOperators hadd comparator
  rw [Bool.eq_iff_iff, ComparatorSet.contains_ofList, List.contains_iff_mem, hmem,
    contains_permitted, Bool.or_eq_true, List.contains_iff_mem, ComparatorSet.equality,
    ComparatorSet.contains_ofList, List.contains_iff_mem]

/-- The annotations of the other can be read as well, and they say the same in another
distribution, and name the same comparators in any order. -/
structure SelectsAs (field other : DeclaredField) : Prop where
  name : field.name = other.name
  legible : Legible other.annotations
  items : field.items.filter (fun item => !item.isOperators) =
    other.items.filter fun item => !item.isOperators
  operatorNames : ∀ name, name ∈ field.operatorNames ↔ name ∈ other.operatorNames

theorem SelectsAs.refl (hlegible : Legible field.annotations) : field.SelectsAs field :=
  ⟨rfl, hlegible, rfl, fun _ => Iff.rfl⟩

end DeclaredField

/-! ## Registries -/

namespace Registry

theorem ofList_append_singleton (entries : List (String × Field R))
    (entry : String × Field R) :
    ofList (entries ++ [entry]) = (ofList entries).insert entry.1 entry.2 := by
  simp only [ofList, List.foldl_append, List.foldl_cons, List.foldl_nil]

theorem get?_ofList_filterMap {α : Type} (inputs : List α)
    (entry : α → Option (String × Field R)) (name : String) :
    (ofList (inputs.filterMap entry)).get? name =
      inputs.reverse.findSome? fun input =>
        (entry input).bind fun found => if found.1 = name then some found.2 else none := by
  induction inputs using List.reverseRecOn with
  | nil => exact get?_empty name
  | append_singleton inputs input ih =>
      rw [List.filterMap_append, List.reverse_append, List.reverse_singleton,
        List.singleton_append, List.findSome?_cons, ← ih]
      cases hentry : entry input with
      | none => simp [hentry]
      | some found =>
          rw [List.filterMap_cons_some hentry, List.filterMap_nil, ofList_append_singleton,
            get?_insert, Option.bind_some]
          split <;> rfl

/-- What stands under a name is what the last entry of the name says. -/
theorem get?_eq_some_iff_last {α : Type} {inputs : List α}
    {entry : α → Option (String × Field R)} {name : String} {found : Field R} :
    (ofList (inputs.filterMap entry)).get? name = some found ↔
      ∃ before input behind, inputs = before ++ input :: behind ∧
        entry input = some (name, found) ∧
        ∀ later ∈ behind, ∀ other, entry later ≠ some (name, other) := by
  have hentry : ∀ input, ∀ other : Field R,
      ((entry input).bind fun found => if found.1 = name then some found.2 else none) =
          some other ↔
        entry input = some (name, other) := by
    intro input other
    cases entry input with
    | none => simp
    | some pair =>
        obtain ⟨own, field⟩ := pair
        by_cases hname : own = name
        · simp [hname]
        · simp [hname]
  rw [get?_ofList_filterMap, List.findSome?_eq_some_iff]
  constructor
  · rintro ⟨behind, input, before, hsplit, hfound, hbehind⟩
    refine ⟨before.reverse, input, behind.reverse, ?_, (hentry input found).mp hfound, ?_⟩
    · rw [List.reverse_eq_iff.mp hsplit, List.reverse_append, List.reverse_cons,
        List.append_assoc, List.singleton_append]
    · intro later hmem other hother
      have hnone := hbehind later (List.mem_reverse.mp hmem)
      rw [(hentry later other).mpr hother] at hnone
      cases hnone
  · rintro ⟨before, input, behind, rfl, hfound, hbehind⟩
    refine ⟨behind.reverse, input, before.reverse, ?_, (hentry input found).mpr hfound, ?_⟩
    · rw [List.reverse_append, List.reverse_cons, List.append_assoc, List.singleton_append]
    · intro later hmem
      rw [Option.eq_none_iff_forall_ne_some]
      intro other hother
      exact hbehind later (List.mem_reverse.mp hmem) other ((hentry later other).mp hother)

/-! ## Declarations -/

/-- What a field adds to a registry when nothing is wrong with it. -/
def contribution (declared : DeclaredField × Column R) : Option (String × Field R) :=
  if .exclude ∈ declared.1.items then none
  else some (declared.1.exposedName, declared.1.exposedField declared.2)

theorem entryOf_eq_ok {declared : DeclaredField × Column R}
    {found? : Option (String × Field R)} (hentry : entryOf declared = .ok found?) :
    Legible declared.1.annotations ∧ found? = contribution declared := by
  obtain ⟨field, column⟩ := declared
  unfold entryOf at hentry
  cases hexpose : field.expose with
  | error e =>
      rw [hexpose] at hentry
      cases hentry
  | ok exposure? =>
      have hlegible := DeclaredField.legible_of_expose hexpose
      rw [hexpose] at hentry
      obtain rfl := Except.ok.inj hentry
      refine ⟨hlegible, ?_⟩
      rw [DeclaredField.expose_of_legible hlegible] at hexpose
      unfold contribution
      by_cases hexcluded : .exclude ∈ field.items
      · rw [if_pos hexcluded] at hexpose ⊢
        obtain rfl := Except.ok.inj hexpose
        rfl
      · rw [if_neg hexcluded] at hexpose ⊢
        cases hadd : addOperators [.equal, .notEqual] field.operatorNames with
        | error e =>
            rw [hadd] at hexpose
            cases hexpose
        | ok operators =>
            rw [hadd] at hexpose
            simp only [Except.bind] at hexpose
            by_cases hmarked : field.isMarked = true
            · rw [if_pos hmarked] at hexpose
              cases hexpose
            · rw [if_neg hmarked] at hexpose
              obtain rfl := Except.ok.inj hexpose
              simp only [Option.map_some, Exposure.toField, DeclaredField.exposedField,
                decide_eq_true_eq, DeclaredField.ofList_eq_permitted hadd]

variable {fields : List (DeclaredField × Column R)}

theorem filterMap_entries {entries : List (Option (String × Field R))}
    (hentries : List.Forall₂ (fun declared found? => entryOf declared = .ok found?)
      fields entries) :
    (∀ declared ∈ fields, Legible declared.1.annotations) ∧
      entries.filterMap id = fields.filterMap contribution := by
  induction hentries with
  | nil => exact ⟨by simp, rfl⟩
  | cons hentry _ ih =>
      obtain ⟨hlegible, hfound⟩ := entryOf_eq_ok hentry
      rw [List.forall_mem_cons, List.filterMap_cons, List.filterMap_cons, ih.2, hfound]
      exact ⟨⟨hlegible, ih.1⟩, rfl⟩

theorem ofDeclared_eq_ok {registry : Registry R} (hdeclared : ofDeclared fields = .ok registry) :
    (∀ declared ∈ fields, Legible declared.1.annotations) ∧
      registry = ofList (fields.filterMap contribution) := by
  unfold ofDeclared at hdeclared
  cases hentries : fields.mapM entryOf with
  | error e =>
      rw [hentries] at hdeclared
      cases hdeclared
  | ok entries =>
      rw [hentries] at hdeclared
      obtain rfl := Except.ok.inj hdeclared
      obtain ⟨hlegible, hfound⟩ := filterMap_entries (mapM_eq_ok_iff.mp hentries)
      exact ⟨hlegible, congrArg ofList hfound⟩

theorem failure?_ofDeclared
    (hlegible : ∀ declared ∈ fields, Legible declared.1.annotations) :
    failure? (ofDeclared fields) =
      (fields.flatMap fun declared => declared.1.troubles).head? := by
  rw [ofDeclared, failure?_map, failure?_mapM, List.head?_flatMap]
  apply findSome?_congr
  intro declared hmem
  rw [entryOf, failure?_map, DeclaredField.failure?_expose (hlegible declared hmem)]

/-! ## The same selection in other annotations -/

theorem mem_items_iff_of_selectsAs {field other : DeclaredField}
    (hselects : field.SelectsAs other) {item : Item} (hitem : item.isOperators = false) :
    item ∈ field.items ↔ item ∈ other.items := by
  have hfilter : item ∈ field.items.filter (fun item => !item.isOperators) ↔
      item ∈ other.items.filter fun item => !item.isOperators := by
    rw [hselects.items]
  simpa [List.mem_filter, hitem] using hfilter

theorem contribution_eq_of_selectsAs {field other : DeclaredField}
    (hselects : field.SelectsAs other) (column : Column R) :
    contribution (field, column) = contribution (other, column) := by
  have hrename : ∀ items : List Item,
      items.filterMap Item.rename? =
        (items.filter fun item => !item.isOperators).filterMap Item.rename? := by
    intro items
    rw [List.filterMap_filter]
    congr 1
    funext item
    cases item <;> rfl
  have hname : field.exposedName = other.exposedName := by
    rw [DeclaredField.exposedName, DeclaredField.exposedName, hrename, hselects.items,
      ← hrename, hselects.name]
  have hpermitted : field.permitted = other.permitted := by
    ext comparator
    have hnames : field.operatorNames.contains comparator.name =
        other.operatorNames.contains comparator.name := by
      rw [Bool.eq_iff_iff, List.contains_iff_mem, List.contains_iff_mem]
      exact hselects.operatorNames comparator.name
    rw [DeclaredField.contains_permitted, DeclaredField.contains_permitted, hnames]
  unfold contribution DeclaredField.exposedField
  simp only [
    mem_items_iff_of_selectsAs hselects (show Item.isOperators .exclude = false from rfl),
    mem_items_iff_of_selectsAs hselects (show Item.isOperators .ignore = false from rfl),
    hname, hpermitted]

theorem troubles_eq_nil_of_selectsAs {field other : DeclaredField}
    (hselects : field.SelectsAs other) (hfine : field.troubles = []) : other.troubles = [] := by
  unfold DeclaredField.troubles at hfine ⊢
  have hexcluded :=
    mem_items_iff_of_selectsAs hselects (show Item.isOperators .exclude = false from rfl)
  have hmarked : field.isMarked = other.isMarked := by
    rw [DeclaredField.isMarked, DeclaredField.isMarked, hselects.name]
  by_cases hexclude : .exclude ∈ field.items
  · rw [if_pos (hexcluded.mp hexclude)]
  · rw [if_neg hexclude, List.append_eq_nil_iff, List.map_eq_nil_iff, hmarked,
      hselects.name] at hfine
    rw [if_neg fun hother => hexclude (hexcluded.mpr hother), hfine.2, List.append_nil,
      List.map_eq_nil_iff, unknownNames, List.filter_eq_nil_iff]
    intro name hmem
    have hknown := List.filter_eq_nil_iff.mp hfine.1
    exact hknown name ((hselects.operatorNames name).mpr hmem)

theorem ofDeclared_of_selectsAs {registry : Registry R}
    {others : List (DeclaredField × Column R)} (hdeclared : ofDeclared fields = .ok registry)
    (hselects : List.Forall₂ (fun declared other =>
      declared.1.SelectsAs other.1 ∧ declared.2 = other.2) fields others) :
    ofDeclared others = .ok registry := by
  obtain ⟨hlegible, hregistry⟩ := ofDeclared_eq_ok hdeclared
  have hfine := failure?_ofDeclared hlegible
  rw [hdeclared] at hfine
  have htroubles := List.flatMap_eq_nil_iff.mp (List.head?_eq_none_iff.mp hfine.symm)
  have hothers : (∀ other ∈ others, Legible other.1.annotations ∧ other.1.troubles = []) ∧
      fields.filterMap contribution = others.filterMap contribution := by
    clear hdeclared hlegible hregistry hfine
    induction hselects with
    | nil => exact ⟨by simp, rfl⟩
    | @cons declared other fields others hdeclared _ ih =>
        rw [List.forall_mem_cons] at htroubles ⊢
        obtain ⟨field, column⟩ := declared
        obtain ⟨next, same⟩ := other
        obtain ⟨hselects, rfl⟩ := hdeclared
        obtain ⟨hrest, hcontributions⟩ := ih htroubles.2
        have hfirst := troubles_eq_nil_of_selectsAs hselects htroubles.1
        refine ⟨⟨⟨hselects.legible, hfirst⟩, hrest⟩, ?_⟩
        rw [List.filterMap_cons, List.filterMap_cons, hcontributions,
          contribution_eq_of_selectsAs hselects]
  have hnone : failure? (ofDeclared others) = none := by
    rw [failure?_ofDeclared fun other hmem => (hothers.1 other hmem).1,
      List.head?_eq_none_iff, List.flatMap_eq_nil_iff]
    exact fun other hmem => (hothers.1 other hmem).2
  obtain ⟨found, hfound⟩ := failure?_eq_none_iff.mp hnone
  rw [hfound, (ofDeclared_eq_ok hfound).2, hregistry, hothers.2]

/-- The registry of a declaration holds the fields that are not excluded, each under its
last name and with what its items permit, the last of those that share a name.  It does
not depend on how the items are distributed over annotations, nor on the order and the
number of mentions of a comparator.  A declaration with annotations that can be read
fails for the first trouble with its fields, and only where there is one. -/
theorem ofDeclared_selects (fields : List (DeclaredField × Column R)) :
    (∀ registry, ofDeclared fields = .ok registry →
      (∀ name found, registry.get? name = some found ↔
        ∃ before field column behind, fields = before ++ (field, column) :: behind ∧
          .exclude ∉ field.items ∧ field.exposedName = name ∧ field.exposedField column = found ∧
          ∀ later ∈ behind, .exclude ∉ later.1.items → later.1.exposedName ≠ name) ∧
      ∀ others, List.Forall₂ (fun declared other =>
          declared.1.SelectsAs other.1 ∧ declared.2 = other.2) fields others →
        ofDeclared others = .ok registry) ∧
    ((∀ declared ∈ fields, Legible declared.1.annotations) →
      ∀ error, ofDeclared fields = .error error ↔
        (fields.flatMap fun declared => declared.1.troubles).head? = some error) := by
  refine ⟨?_, ?_⟩
  · intro registry hdeclared
    refine ⟨?_, fun others hselects => ofDeclared_of_selectsAs hdeclared hselects⟩
    intro name found
    have hcontribution : ∀ declared : DeclaredField × Column R, ∀ other,
        contribution declared = some (name, other) ↔
          .exclude ∉ declared.1.items ∧ declared.1.exposedName = name ∧
            declared.1.exposedField declared.2 = other := by
      intro declared other
      unfold contribution
      by_cases hexcluded : .exclude ∈ declared.1.items
      · simp [hexcluded]
      · simp [hexcluded]
    rw [(ofDeclared_eq_ok hdeclared).2, get?_eq_some_iff_last]
    simp only [hcontribution, ne_eq]
    constructor
    · rintro ⟨before, ⟨field, column⟩, behind, hsplit, ⟨hexposed, hname, hfound⟩, hbehind⟩
      refine ⟨before, field, column, behind, hsplit, hexposed, hname, hfound, ?_⟩
      intro later hmem hlater hsame
      exact hbehind later hmem _ ⟨hlater, hsame, rfl⟩
    · rintro ⟨before, field, column, behind, hsplit, hexposed, hname, hfound, hbehind⟩
      refine ⟨before, (field, column), behind, hsplit, ⟨hexposed, hname, hfound⟩, ?_⟩
      intro later hmem other hother
      exact hbehind later hmem hother.1 hother.2.1
  · intro hlegible error
    rw [← failure?_eq_some_iff, failure?_ofDeclared hlegible]

/-- A name that two fields share, and unknown operators on a field that is excluded and on
one that is not. -/
theorem ofDeclared_selects_sharedName :
    let column : Column String := ⟨.text, Cell.one⟩
    let code : DeclaredField :=
      ⟨"code", ["condition(rename = \"id\", op(lt, in))", "condition(rename = \"key\")"]⟩
    let joined : DeclaredField :=
      ⟨"code", ["condition(op(in, lt, in), rename = \"id\", rename = \"key\")"]⟩
    let mark : DeclaredField := ⟨"mark", ["condition(ignore, rename = \"key\")"]⟩
    let note : DeclaredField := ⟨"note", ["condition(op(like), exclude)"]⟩
    let size : DeclaredField := ⟨"size", ["condition(op(lt, near, like))"]⟩
    code.SelectsAs joined ∧
      (∃ registry, ofDeclared [(code, column), (mark, column)] = .ok registry ∧
        registry.get? "key" = some (mark.exposedField column) ∧
        ofDeclared [(joined, column), (mark, column)] = .ok registry) ∧
      ofDeclared [(note, column), (size, column)] = .error (.unknownOperator "near") := by
  intro column code joined mark note size
  have hmark : Legible mark.annotations := by decide +kernel
  have hselects : code.SelectsAs joined := by
    have hnames : code.operatorNames = ["lt", "in"] := by decide +kernel
    have hothers : joined.operatorNames = ["in", "lt", "in"] := by decide +kernel
    refine ⟨rfl, by decide +kernel, by decide +kernel, ?_⟩
    intro name
    rw [hnames, hothers]
    grind
  refine ⟨hselects, ?_, ?_⟩
  · obtain ⟨hregistry, herror⟩ := ofDeclared_selects [(code, column), (mark, column)]
    cases hdeclared : ofDeclared [(code, column), (mark, column)] with
    | error error =>
        have hlegible : ∀ declared ∈ [(code, column), (mark, column)],
            Legible declared.1.annotations := by
          rw [List.forall_mem_cons, List.forall_mem_singleton]
          exact ⟨by decide +kernel, hmark⟩
        have htrouble := (herror hlegible error).mp hdeclared
        have hcode : code.troubles = [] := by decide +kernel
        have hfine : mark.troubles = [] := by decide +kernel
        simp [hcode, hfine] at htrouble
    | ok registry =>
        obtain ⟨hget, hothers⟩ := hregistry registry hdeclared
        refine ⟨registry, rfl, ?_, ?_⟩
        · refine (hget "key" _).mpr ⟨[(code, column)], mark, column, [], rfl, ?_⟩
          exact ⟨by decide +kernel, by decide +kernel, rfl, by simp⟩
        · exact hothers _ (.cons ⟨hselects, rfl⟩ (.cons ⟨.refl hmark, rfl⟩ .nil))
  · have hlegible : ∀ declared ∈ [(note, column), (size, column)],
        Legible declared.1.annotations := by
      rw [List.forall_mem_cons, List.forall_mem_singleton]
      exact ⟨by decide +kernel, by decide +kernel⟩
    have hnote : note.troubles = [] := by decide +kernel
    have hsize : size.troubles = [.unknownOperator "near", .unknownOperator "like"] := by
      decide +kernel
    refine ((ofDeclared_selects _).2 hlegible _).mpr ?_
    simp [hnote, hsize]

/-- Nothing is wrong with the operators of a field with a marked name, for there are
none, and yet it fails. -/
theorem ofDeclared_markedName :
    let field : DeclaredField := ⟨"r#type", []⟩
    let column : Column String := ⟨.text, Cell.one⟩
    Legible field.annotations ∧ .exclude ∉ field.items ∧ field.operatorNames = [] ∧
      ofDeclared [(field, column)] = .error (.unnameable "r#typeField") := by
  intro field column
  have hfailure : failure? (ofDeclared [(field, column)]) =
      some (.unnameable "r#typeField") := by
    decide +kernel
  exact ⟨Legible.nil, by decide, rfl, failure?_eq_some_iff.mp hfailure⟩

end Registry

end RecordCondition
