import RecordCondition.Json.Column
import RecordCondition.Proofs.Correspondence
import RecordCondition.Proofs.Expr.Equality

/-!
# Conditions over JSON values and over typed records

One list of definitions gives a registry over JSON values and, with a way to read an
optional value of each definition's type, a registry over records of any kind.  The
two compile a condition alike, and their predicates answer alike on a JSON value and
a record that holds what the value has at the keys.  A value that is missing, or of
another JSON type, is held as no value.
-/

namespace RecordCondition

variable {R : Type}

namespace Json

/-! ## Definitions -/

/-- How a field is kept from being checked, if it is. -/
inductive Wrapping
  | checked
  /-- The field is replaced by one without a column. -/
  | bare
  | over (inner : Wrapping)

def Wrapping.wrap : Wrapping → TypedField R → Field R
  | .checked, field => .typed field
  | .bare, _ => .bare
  | .over inner, field => .over (inner.wrap field)

structure Definition where
  name : String
  key : String
  kind : Kind
  operators : ComparatorSet
  min : Option kind.type.Value := none
  max : Option kind.type.Value := none
  pattern : Option Pattern := none
  wrapping : Wrapping := .checked

namespace Definition

def jsonField (definition : Definition) : Field Json :=
  definition.wrapping.wrap
    { column := Json.column definition.kind definition.key
      operators := definition.operators
      min := definition.min
      max := definition.max
      pattern := definition.pattern }

/-- The field of records from which `access` reads an optional value. -/
def recordField (definition : Definition) (access : R → Option definition.kind.type.Value) :
    Field R :=
  definition.wrapping.wrap
    { column := ⟨definition.kind.type, fun record => .ofOption (access record)⟩
      operators := definition.operators
      min := definition.min
      max := definition.max
      pattern := definition.pattern }

end Definition

def jsonRegistry (definitions : List Definition) : Registry Json :=
  .ofList (definitions.map fun definition => (definition.name, definition.jsonField))

def recordRegistry (definitions : List Definition)
    (access : (definition : Definition) → R → Option definition.kind.type.Value) :
    Registry R :=
  .ofList (definitions.map fun definition =>
    (definition.name, definition.recordField (access definition)))

/-! ## Values that are missing -/

/-- The JSON value is of the JSON type in which values of the kind are written. -/
def Kind.Fits : Kind → Json → Prop
  | .double, .number _ | .signed, .number _ | .unsigned, .number _ => True
  | .truth, .truth _ => True
  | .text, .string _ => True
  | _, _ => False

theorem Kind.fits_of_read {kind : Kind} {json : Json} {value : kind.type.Value}
    (hread : kind.read json = some value) : kind.Fits json := by
  cases kind <;> cases json <;> first | exact trivial | cases hread

theorem exists_object_of_get? {key : String} {row value : Json}
    (hget : row.get? key = some value) : ∃ members, row = .object members := by
  cases row with
  | object members => exact ⟨members, rfl⟩
  | _ => cases hget

theorem Kind.readKey_eq_none {kind : Kind} {key : String} {row : Json}
    (hmissing : ∀ members value, row = .object members → row.get? key = some value →
      ¬ kind.Fits value) : kind.readKey key row = none := by
  unfold Kind.readKey
  rw [Option.bind_eq_none_iff]
  intro value hget
  obtain ⟨members, hmembers⟩ := exists_object_of_get? hget
  rw [Option.eq_none_iff_forall_ne_some]
  intro read hread
  exact hmissing members value hmembers hget (Kind.fits_of_read hread)

/-! ## Correspondence -/

/-- The record holds what the JSON value has at the key of each definition. -/
def Holds (definitions : List Definition)
    (access : (definition : Definition) → R → Option definition.kind.type.Value)
    (row : Json) (record : R) : Prop :=
  ∀ definition ∈ definitions,
    access definition record = definition.kind.readKey definition.key row

theorem Wrapping.wrap_alike {S : Type} {corresponds : R → S → Prop} {field : TypedField R}
    {other : TypedField S} (halike : Field.Alike corresponds (.typed field) (.typed other))
    (wrapping : Wrapping) :
    Field.Alike corresponds (wrapping.wrap field) (wrapping.wrap other) := by
  induction wrapping with
  | checked => exact halike
  | bare => exact Field.alike_bare
  | «over» inner ih => exact Field.alike_over ih

theorem Definition.fields_alike {definition : Definition}
    {access : R → Option definition.kind.type.Value} {corresponds : Json → R → Prop}
    (haccess : ∀ row record, corresponds row record →
      access record = definition.kind.readKey definition.key row) :
    Field.Alike corresponds definition.jsonField (definition.recordField access) := by
  apply Wrapping.wrap_alike
  apply Field.alike_typed
  intro row record hrow
  rw [haccess row record hrow]

end Json

namespace Registry

theorem correspondAt_ofList {S ι : Type} {corresponds : R → S → Prop} {inputs : List ι}
    {name : ι → String} {field : ι → Field R} {other : ι → Field S}
    (halike : ∀ input ∈ inputs, (field input).Alike corresponds (other input))
    (wanted : String) :
    CorrespondAt corresponds (ofList (inputs.map fun input => (name input, field input)))
      (ofList (inputs.map fun input => (name input, other input))) wanted := by
  have hfold : ∀ first second, CorrespondAt corresponds first second wanted →
      CorrespondAt corresponds
        ((inputs.map fun input => (name input, field input)).foldl
          (fun registry entry => registry.insert entry.1 entry.2) first)
        ((inputs.map fun input => (name input, other input)).foldl
          (fun registry entry => registry.insert entry.1 entry.2) second) wanted := by
    induction inputs with
    | nil => exact fun _ _ hstart => hstart
    | cons input inputs ih =>
        rw [List.forall_mem_cons] at halike
        intro first second hstart
        apply ih halike.2
        unfold CorrespondAt
        rw [get?_insert, get?_insert]
        split
        · exact .some halike.1
        · exact hstart
  apply hfold
  unfold CorrespondAt
  rw [get?_empty, get?_empty]
  exact .none

end Registry

namespace Json

theorem registries_correspond (definitions : List Definition)
    (access : (definition : Definition) → R → Option definition.kind.type.Value)
    (name : String) :
    Registry.CorrespondAt (Holds definitions access) (jsonRegistry definitions)
      (recordRegistry definitions access) name := by
  apply Registry.correspondAt_ofList
  intro definition hmem
  apply Definition.fields_alike
  intro row record hholds
  exact hholds definition hmem

/-- Both registries refuse a text for the same reason, or both compile it to predicates
that are written alike and answer alike, on each JSON value and each record that holds
what the value has. -/
theorem backends_agree (definitions : List Definition)
    (access : (definition : Definition) → R → Option definition.kind.type.Value)
    (limits : Limits) (text : String) :
    (∀ (kind : Kind) (key : String) (row : Json),
      (∀ members value, row = .object members → row.get? key = some value →
        ¬ kind.Fits value) → kind.readKey key row = none) ∧
    ((∃ e, (jsonRegistry definitions).compileText limits text = .error e ∧
        (recordRegistry definitions access).compileText limits text = .error e) ∨
      ∃ predicate other,
        (jsonRegistry definitions).compileText limits text = .ok predicate ∧
        (recordRegistry definitions access).compileText limits text = .ok other ∧
        predicate.display = other.display ∧
        ∀ row record, Holds definitions access row record →
          predicate.holds row = other.holds record) := by
  refine ⟨fun kind key row => Kind.readKey_eq_none, ?_⟩
  have hagrees := Registry.compileText_agrees (registries_correspond definitions access)
    limits text
  generalize (jsonRegistry definitions).compileText limits text = result,
    (recordRegistry definitions access).compileText limits text = answer at hagrees
  cases hagrees with
  | error e => exact Or.inl ⟨e, rfl, rfl⟩
  | ok halike =>
      refine Or.inr ⟨_, _, rfl, rfl, halike.display_eq, ?_⟩
      intro row record hholds
      exact halike.holds_eq hholds

theorem parse_lostShares :
    Condition.parse {} "shares < 5 or code != 'x'" =
      .ok ⟨"shares < 5 or code != 'x'", .junction .or
        [.compare (.name "shares") [.less] [.constant (.number "5")],
          .compare (.name "code") [.notEqual] [.constant (.text "x")]]⟩ := by
  decide +kernel

/-- The count is an integer that the field cannot hold and the code is missing, so
neither is less or equal; the denial alone lets the row pass. -/
theorem backends_agree_lostShares :
    let definitions : List Definition :=
      [{ name := "shares", key := "n", kind := .signed, operators := .ordered },
        { name := "code", key := "c", kind := .text, operators := .textual }]
    let row : Json := .object [("n", .number "9223372036854775808")]
    let record : (definition : Definition) → Option definition.kind.type.Value :=
      fun definition => definition.kind.readKey definition.key row
    let access (definition : Definition)
        (record : (definition : Definition) → Option definition.kind.type.Value) :=
      record definition
    Holds definitions access row record ∧
      ∃ predicate other,
        (jsonRegistry definitions).compileText {} "shares < 5 or code != 'x'" = .ok predicate ∧
        (recordRegistry definitions access).compileText {} "shares < 5 or code != 'x'" =
          .ok other ∧
        predicate.holds row = true ∧ other.holds record = true := by
  intro definitions row record access
  have hholds : Holds definitions access row record := fun _ _ => rfl
  refine ⟨hholds, ?_⟩
  have hcompile : ∃ predicate,
      (jsonRegistry definitions).compileText {} "shares < 5 or code != 'x'" = .ok predicate ∧
        predicate.holds row = true := by
    unfold Registry.compileText
    rw [parse_lostShares]
    exact ⟨_, rfl, rfl⟩
  obtain ⟨predicate, hpredicate, hrow⟩ := hcompile
  rcases (backends_agree definitions access {} "shares < 5 or code != 'x'").2 with
    ⟨e, herror, -⟩ | ⟨found, other, hfound, hother, -, hanswers⟩
  · rw [hpredicate] at herror
    cases herror
  · rw [hpredicate] at hfound
    obtain rfl := Except.ok.inj hfound
    exact ⟨predicate, other, hpredicate, hother, hrow, hanswers row record hholds ▸ hrow⟩

end Json

end RecordCondition
