import RecordCondition.Proofs.Compilation
import RecordCondition.Proofs.Field.Filter
import RecordCondition.Proofs.Json.Backends

/-!
# Lookups over cells with many values

A lookup holds of a record when some value in the cell of the column satisfies it, and
a cell without values satisfies none.  A denied comparison is the other way round: it
asks that no value in the cell satisfies the lookup, and so it always holds where there
is no value.
-/

namespace RecordCondition

variable {R : Type}

/-! ## What single values satisfy -/

/-- The order of a value and its operand that a lookup asks for. -/
def Lookup.Admits : Lookup → Ordering → Prop
  | .exact, order => order = .eq
  | .contains, _ => False
  | .less, order => order = .lt
  | .lessEqual, order => order ≠ .gt
  | .greater, order => order = .gt
  | .greaterEqual, order => order ≠ .lt

/-- Containment is of texts.  For the other lookups the operand is read as a value, and
the two values must have an order. -/
def ScalarType.Satisfies (type : ScalarType) (lookup : Lookup) (operand : String)
    (value : type.Value) : Prop :=
  match lookup with
  | .contains => operand.toList <:+: (type.display value).toList
  | lookup =>
      ∃ target order, type.read operand = .ok target ∧
        type.compare? value target = some order ∧ lookup.Admits order

theorem Lookup.accepts_eq_true_iff {lookup : Lookup} {order : Option Ordering} :
    lookup.accepts order = true ↔ ∃ found, order = some found ∧ lookup.Admits found := by
  cases order with
  | none => cases lookup <;> simp [accepts]
  | some order => cases lookup <;> cases order <;> simp [accepts, Admits]

namespace Column

theorem exists_filter_eq_ok_iff {column : Column R} {lookup : Lookup} {operand : String} :
    (∃ holds, column.filter lookup operand = .ok holds) ↔
      lookup = .contains ∨ ∃ target, column.type.read operand = .ok target := by
  by_cases hlookup : lookup = .contains
  · subst hlookup
    simp [filter_contains]
  · rw [filter_of_ne_contains column hlookup]
    cases hread : column.type.read operand with
    | error e => simp [hlookup]
    | ok target => simp

/-- The test of single values that is behind a filter. -/
theorem exists_test_of_filter {column : Column R} {lookup : Lookup} {operand : String}
    {holds : R → Bool} (hfilter : column.filter lookup operand = .ok holds) :
    ∃ test : column.type.Value → Bool,
      (∀ record, holds record = (column.read record).any test) ∧
      ∀ value, test value = true ↔ column.type.Satisfies lookup operand value := by
  by_cases hlookup : lookup = .contains
  · subst hlookup
    rw [filter_contains] at hfilter
    obtain rfl := Except.ok.inj hfilter
    exact ⟨_, fun record => rfl, fun value => occursIn_iff⟩
  · rw [filter_of_ne_contains column hlookup] at hfilter
    cases hread : column.type.read operand with
    | error e => simp [hread] at hfilter
    | ok target =>
        simp only [hread] at hfilter
        obtain rfl := Except.ok.inj hfilter
        refine ⟨_, fun record => rfl, fun value => ?_⟩
        rw [Lookup.accepts_eq_true_iff]
        cases lookup with
        | contains => exact absurd rfl hlookup
        | _ => simp [ScalarType.Satisfies, hread]

theorem filter_eq_true_iff {column : Column R} {lookup : Lookup} {operand : String}
    {holds : R → Bool} (hfilter : column.filter lookup operand = .ok holds) (record : R) :
    holds record = true ↔
      ∃ value, (column.read record).Contains value ∧
        column.type.Satisfies lookup operand value := by
  obtain ⟨test, hholds, htest⟩ := exists_test_of_filter hfilter
  rw [hholds, Cell.any_eq_true_iff]
  simp only [htest]

end Column

/-! ## Columns of JSON values -/

theorem Json.filter_eq_true_iff {kind : Kind} {key : String} {lookup : Lookup}
    {operand : String} {holds : Json → Bool}
    (hfilter : (Json.column kind key).filter lookup operand = .ok holds) (row : Json) :
    holds row = true ↔
      ∃ value, kind.readKey key row = some value ∧ kind.type.Satisfies lookup operand value := by
  have hcontains : ∀ value, (Cell.ofOption (kind.readKey key row)).Contains value ↔
      kind.readKey key row = some value := fun value => Cell.contains_ofOption_iff
  simp only [← hcontains]
  exact Column.filter_eq_true_iff hfilter row

/-! ## Denied comparisons -/

theorem Comparison.reorient_comparator_of_denied {pair : Comparison}
    (hdenied : pair.comparator = .notEqual ∨ pair.comparator = .notIn) :
    pair.reorient.comparator = pair.comparator := by
  unfold Comparison.reorient
  split
  · rcases hdenied with hdenied | hdenied <;> rw [hdenied] <;> rfl
  · rfl

/-- The test of a denied pair of a compiled condition stands under a negation, and what
it denies is that a value in the cell satisfies the lookup. -/
theorem Registry.denies_of_compileText {registry : Registry R} {limits : Limits}
    {text : String} {predicate : Predicate R} {condition : Condition}
    (hcompile : registry.compileText limits text = .ok predicate)
    (hparse : Condition.parse limits text = .ok condition) {pair : Comparison}
    (hpair : pair ∈ condition.expr.pairs)
    (hdenied : pair.comparator = .notEqual ∨ pair.comparator = .notIn) :
    ∃ leaf field column, (leaf, true) ∈ predicate.tests ∧ leaf.field = pair.field ∧
      leaf.lookup = pair.comparator.lookup ∧ leaf.value = pair.value ∧
      registry.get? pair.field = some field ∧ field.column? = some column ∧
      ∀ record, (!leaf.holds record) = true ↔
        ¬ ∃ value, (column.read record).Contains value ∧
          column.type.Satisfies pair.comparator.lookup pair.value value := by
  obtain ⟨found, hfound, -, hbuild⟩ := compileText_eq_ok_iff.mp hcompile
  obtain rfl : condition = found := by
    rw [hparse] at hfound
    exact Except.ok.inj hfound
  obtain ⟨⟨leaf, negated⟩, htest, hcarries⟩ := exists_test_of_mem_pairs hbuild hpair
  have hcomparator := Comparison.reorient_comparator_of_denied hdenied
  have hfield : leaf.field = pair.field := by
    rw [hcarries.field, Comparison.reorient_left, Comparison.field]
  have hvalue : leaf.value = pair.value := by
    rw [hcarries.value, Comparison.reorient_right, Comparison.value]
  have hlookup : leaf.lookup = pair.comparator.lookup := by
    rw [hcarries.lookup, hcomparator]
  have hnegated : negated = pair.reorient.comparator.negated := hcarries.negated
  obtain rfl : negated = true := by
    rw [hnegated, hcomparator]
    rcases hdenied with hdenied | hdenied <;> rw [hdenied] <;> rfl
  obtain ⟨field, hget, hfilter⟩ := hcarries.holds
  simp only at hget hfilter
  rw [Field.filter_eq] at hfilter
  cases hcolumn : field.column? with
  | none => simp [hcolumn] at hfilter
  | some column =>
      rw [hcolumn, hlookup, hvalue] at hfilter
      refine ⟨leaf, field, column, htest, hfield, hlookup, hvalue, hfield ▸ hget, hcolumn, ?_⟩
      intro record
      rw [Bool.not_eq_true', ← Bool.not_eq_true, Column.filter_eq_true_iff hfilter]

/-! ## Lookups on cells -/

/-- An instantiated lookup holds of a record where some value in the cell satisfies it, and
never where there is no value, be it that places or lists are empty at any depth or that a
JSON value is missing or of another type.  In a compiled condition, a denied comparison
holds where no value in the cell satisfies the lookup. -/
theorem Column.filter_distributes :
    (∀ (column : Column R) (lookup : Lookup) (operand : String),
      (∃ holds, column.filter lookup operand = .ok holds) ↔
        lookup = .contains ∨ ∃ target, column.type.read operand = .ok target) ∧
    (∀ (column : Column R) (lookup : Lookup) (operand : String) (holds : R → Bool),
      column.filter lookup operand = .ok holds → ∀ record,
        (holds record = true ↔
          ∃ value, (column.read record).Contains value ∧
            column.type.Satisfies lookup operand value) ∧
        ((column.read record).Vacant → holds record = false)) ∧
    (∀ (kind : Json.Kind) (key : String) (lookup : Lookup) (operand : String)
        (holds : Json → Bool),
      (Json.column kind key).filter lookup operand = .ok holds → ∀ row,
        (holds row = true ↔
          ∃ value, kind.readKey key row = some value ∧
            kind.type.Satisfies lookup operand value) ∧
        ((∀ members value, row = .object members → row.get? key = some value →
          ¬ kind.Fits value) → holds row = false)) ∧
    (∀ (registry : Registry R) (limits : Limits) (text : String) (predicate : Predicate R)
        (condition : Condition),
      registry.compileText limits text = .ok predicate →
      Condition.parse limits text = .ok condition →
      ∀ pair ∈ condition.expr.pairs, pair.comparator = .notEqual ∨ pair.comparator = .notIn →
        ∃ leaf field column, (leaf, true) ∈ predicate.tests ∧ leaf.field = pair.field ∧
          leaf.lookup = pair.comparator.lookup ∧ leaf.value = pair.value ∧
          registry.get? pair.field = some field ∧ field.column? = some column ∧
          ∀ record, (!leaf.holds record) = true ↔
            ¬ ∃ value, (column.read record).Contains value ∧
              column.type.Satisfies pair.comparator.lookup pair.value value) := by
  refine ⟨fun column lookup operand => exists_filter_eq_ok_iff, ?cells, ?json, ?denied⟩
  case cells =>
    intro column lookup operand holds hfilter record
    refine ⟨filter_eq_true_iff hfilter record, ?_⟩
    intro hvacant
    rw [← Bool.not_eq_true, filter_eq_true_iff hfilter]
    rintro ⟨value, hcontains, -⟩
    exact Cell.not_contains_of_vacant hvacant value hcontains
  case json =>
    intro kind key lookup operand holds hfilter row
    refine ⟨Json.filter_eq_true_iff hfilter row, ?_⟩
    intro hmissing
    rw [← Bool.not_eq_true, Json.filter_eq_true_iff hfilter, Json.Kind.readKey_eq_none hmissing]
    simp
  case denied =>
    intro registry limits text predicate condition hcompile hparse pair hpair hdenied
    exact Registry.denies_of_compileText hcompile hparse hpair hdenied

theorem parse_untagged :
    Condition.parse {} "tags != 'auto'" =
      .ok ⟨"tags != 'auto'", .compare (.name "tags") [.notEqual] [.constant (.text "auto")]⟩ := by
  decide +kernel

/-- Tags within optional lists: the denial holds where there are none, and not where one
of them is denied. -/
theorem Column.filter_distributes_untagged :
    let registry : Registry (Cell String) := .ofList
      [("tags", .typed { column := ⟨.text, id⟩, operators := .textual })]
    let none : Cell String := .many [.absent, .many [], .present (.many [.absent])]
    let some : Cell String := .many [.absent, .present (.many [.one "export", .one "auto"])]
    none.Vacant ∧ some.Contains "auto" ∧
      ∃ predicate leaf, registry.compileText {} "tags != 'auto'" = .ok predicate ∧
        (leaf, true) ∈ predicate.tests ∧
        (!leaf.holds none) = true ∧ (!leaf.holds some) = false := by
  intro registry none some
  have hnone : none.Vacant := by
    refine .many ?_
    simp only [List.mem_cons, List.not_mem_nil, or_false, forall_eq_or_imp, forall_eq]
    exact ⟨.absent, .many (by simp), .present (.many (by simpa using .absent))⟩
  have htags : (Cell.many [.one "export", .one "auto"]).Contains "auto" :=
    .many (List.mem_cons_of_mem _ List.mem_cons_self) .one
  have hsome : some.Contains "auto" :=
    .many (List.mem_cons_of_mem _ List.mem_cons_self) (.present htags)
  have hcompile : ∃ predicate,
      registry.compileText {} "tags != 'auto'" = .ok predicate := by
    unfold Registry.compileText
    rw [parse_untagged]
    exact ⟨_, rfl⟩
  obtain ⟨predicate, hpredicate⟩ := hcompile
  obtain ⟨leaf, field, column, htest, -, -, -, hget, hcolumn, hdenies⟩ :=
    Column.filter_distributes.2.2.2 registry {} _ predicate _ hpredicate parse_untagged
      ⟨.identifier "tags", .notEqual, .literal (.text "auto")⟩ List.mem_cons_self (Or.inl rfl)
  obtain rfl : _ = field := Option.some.inj hget
  obtain rfl : (⟨.text, id⟩ : Column (Cell String)) = column := Option.some.inj hcolumn
  refine ⟨hnone, hsome, predicate, leaf, hpredicate, htest, ?_, ?_⟩
  · rw [hdenies]
    rintro ⟨value, hcontains, -⟩
    exact Cell.not_contains_of_vacant hnone value hcontains
  · rw [← Bool.not_eq_true, hdenies, not_not]
    exact ⟨"auto", hsome, "auto", .eq, rfl, by decide, rfl⟩

end RecordCondition
