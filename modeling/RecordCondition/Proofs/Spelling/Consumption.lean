import RecordCondition.Proofs.Spelling.Readers

/-!
# What the readers take and leave

Every reader of the ladder that succeeds takes at least one token and leaves an end of the
tokens, whatever reader it is given for the expressions in brackets, as long as that one
leaves an end as well.  So does every item of a repetition, and no repetition is ended for
an item that takes nothing.
-/

namespace RecordCondition

variable {α β γ : Type}

/-! ## What a reader leaves -/

/-- What is left of a list when something was taken from its front. -/
def Behind (rest whole : List α) : Prop :=
  rest <:+ whole ∧ rest.length < whole.length

theorem Behind.of_append {taken : List α} (htaken : taken ≠ []) (rest : List α) :
    Behind rest (taken ++ rest) := by
  refine ⟨List.suffix_append taken rest, ?_⟩
  rw [List.length_append]
  have hpositive := List.length_pos_iff.mpr htaken
  omega

theorem Behind.cons (first : α) (rest : List α) : Behind rest (first :: rest) :=
  .of_append (List.cons_ne_nil first []) rest

theorem Behind.of_suffix {rest middle whole : List α} (hrest : rest <:+ middle)
    (hmiddle : Behind middle whole) : Behind rest whole :=
  ⟨hrest.trans hmiddle.1, Nat.lt_of_le_of_lt hrest.length_le hmiddle.2⟩

theorem Behind.trans_suffix {rest middle whole : List α} (hrest : Behind rest middle)
    (hmiddle : middle <:+ whole) : Behind rest whole :=
  ⟨hrest.1.trans hmiddle, Nat.lt_of_lt_of_le hrest.2 hmiddle.length_le⟩

namespace Reader

/-- Where a reader succeeds, it leaves an end of the tokens. -/
def Leaves (reader : Reader α) : Prop :=
  ∀ tokens value rest, reader tokens = some (value, rest) → rest <:+ tokens

/-- Where a reader succeeds, it takes at least one token. -/
def Consumes (reader : Reader α) : Prop :=
  ∀ tokens value rest, reader tokens = some (value, rest) → Behind rest tokens

theorem Consumes.leaves {reader : Reader α} (hconsumes : reader.Consumes) : reader.Leaves :=
  fun tokens value rest hread => (hconsumes tokens value rest hread).1

/-- Items as long as they can be read, and `none` where one of them takes nothing. -/
def manyAsserted (item : Reader α) (tokens : List Token) : Option (List α × List Token) :=
  match item tokens with
  | none => some ([], tokens)
  | some (first, rest) =>
      if rest.length < tokens.length then
        (manyAsserted item rest).map fun (others, last) => (first :: others, last)
      else
        none
  termination_by tokens.length

theorem many_leaves {item : Reader α} (hitem : item.Leaves) (tokens : List Token) :
    (many item tokens).2 <:+ tokens := by
  induction tokens using Reader.many.induct item with
  | case1 tokens hread =>
      simp only [many_of_none hread, List.suffix_refl]
  | case2 tokens first rest hread hshorter ih =>
      rw [many_of_some hread hshorter]
      exact ih.trans (hitem tokens first rest hread)
  | case3 tokens first rest hread hlonger =>
      rw [many, hread]
      simp only [hlonger, if_false]
      exact List.suffix_refl tokens

/-- No item that takes a token ends a repetition for taking none. -/
theorem Consumes.manyAsserted_eq {item : Reader α} (hitem : item.Consumes)
    (tokens : List Token) : manyAsserted item tokens = some (many item tokens) := by
  induction tokens using Reader.many.induct item with
  | case1 tokens hread => rw [manyAsserted, many_of_none hread, hread]
  | case2 tokens first rest hread hshorter ih =>
      rw [manyAsserted, many_of_some hread hshorter, hread]
      simp only [hshorter, if_true, ih, Option.map_some]
  | case3 tokens first rest hread hlonger =>
      exact absurd (hitem tokens first rest hread).2 hlonger

/-- An item that takes nothing would end one. -/
example : manyAsserted (fun tokens => some ((), tokens)) [.stray] = none := by
  cbv

/-! ## Combinations of readers -/

/-- Something and the items that follow it. -/
def followed (first : Reader α) (item : Reader β) (combine : α → List β → γ) : Reader γ :=
  fun tokens => (first tokens).map fun (value, rest) =>
    (combine value (many item rest).1, (many item rest).2)

/-- What the first reader reads or, where it fails, the second. -/
def either (first second : Reader α) : Reader α :=
  fun tokens => first tokens <|> second tokens

def mapped (reader : Reader α) (f : α → β) : Reader β :=
  fun tokens => (reader tokens).map fun (value, rest) => (f value, rest)

theorem Consumes.followed {first : Reader α} {item : Reader β} (hfirst : first.Consumes)
    (hitem : item.Leaves) (combine : α → List β → γ) :
    (first.followed item combine).Consumes := by
  intro tokens value rest hread
  obtain ⟨⟨found, middle⟩, hfound, heq⟩ := Option.map_eq_some_iff.mp hread
  obtain ⟨-, rfl⟩ := Prod.mk.inj heq
  exact .of_suffix (many_leaves hitem middle) (hfirst tokens found middle hfound)

theorem Consumes.step {operator : Reader α} {operand : Reader Expr}
    (hoperator : operator.Consumes) (hoperand : operand.Leaves) :
    (step operator operand).Consumes := by
  rintro tokens ⟨op, value⟩ rest hread
  obtain ⟨middle, hop, hvalue⟩ := step_eq_some_iff.mp hread
  exact .of_suffix (hoperand middle value rest hvalue) (hoperator tokens op middle hop)

theorem Consumes.either {first second : Reader α} (hfirst : first.Consumes)
    (hsecond : second.Consumes) : (first.either second).Consumes := by
  intro tokens value rest hread
  unfold Reader.either at hread
  cases hfound : first tokens with
  | some result =>
      rw [hfound] at hread
      obtain rfl := Option.some.inj hread
      exact hfirst tokens value rest hfound
  | none =>
      rw [hfound] at hread
      exact hsecond tokens value rest hread

theorem Consumes.mapped {reader : Reader α} (hreader : reader.Consumes) (f : α → β) :
    (reader.mapped f).Consumes := by
  intro tokens value rest hread
  obtain ⟨⟨found, after⟩, hfound, heq⟩ := Option.map_eq_some_iff.mp hread
  obtain ⟨-, rfl⟩ := Prod.mk.inj heq
  exact hreader tokens found after hfound

end Reader

/-! ## The readers of the ladder as combinations -/

theorem postfixed_eq (inner : Reader Expr) :
    postfixed inner = (atom inner).followed (trailer inner)
      fun value trailers => trailers.foldl Trailer.apply value := by
  funext tokens
  unfold postfixed Reader.followed
  cases atom inner tokens <;> rfl

theorem leftChain_eq (operator : Reader BinaryOperator) (operand : Reader Expr) :
    leftChain operator operand = operand.followed (Reader.step operator operand)
      fun first steps => steps.foldl (fun left step => .binary step.1 left step.2) first := by
  funext tokens
  unfold leftChain Reader.followed
  cases operand tokens <;> rfl

theorem comparison_eq (inner : Reader Expr) :
    comparison inner =
      (arithmetic inner).followed (Reader.step relation (arithmetic inner)) .chain := by
  funext tokens
  unfold comparison Reader.followed
  cases arithmetic inner tokens <;> rfl

theorem joined_eq (op : Junction) (separator : Keyword) (operand : Reader Expr) :
    joined op separator operand = operand.followed (Reader.step (keyword separator) operand)
      fun first others => .join op first (others.map Prod.snd) := by
  funext tokens
  unfold joined Reader.followed
  cases operand tokens <;> rfl

theorem factor_followed (inner : Reader Expr) :
    factor inner = (signed inner).followed (exponent inner) Expr.powers := by
  funext tokens
  rw [factor_eq]
  rfl

/-! ## Single tokens -/

theorem symbol_consumes (expected : Symbol) : (symbol expected).Consumes := by
  rintro tokens ⟨⟩ rest hread
  rw [symbol_eq_some_iff.mp hread]
  exact .cons _ rest

theorem keyword_consumes (expected : Keyword) : (keyword expected).Consumes := by
  rintro tokens ⟨⟩ rest hread
  rw [keyword_eq_some_iff.mp hread]
  exact .cons _ rest

theorem relation_consumes : relation.Consumes := by
  intro tokens found rest hread
  rw [relation_eq_some hread]
  exact .of_append (by cases found <;> exact List.cons_ne_nil _ _) rest

theorem sumOperator_consumes : sumOperator.Consumes := by
  intro tokens op rest hread
  rw [(sumOperator_eq_some hread).2]
  exact .cons _ rest

theorem productOperator_consumes : productOperator.Consumes := by
  intro tokens op rest hread
  rw [(productOperator_eq_some hread).2]
  exact .cons _ rest

/-! ## Prefixes -/

theorem signs_suffix (tokens : List Token) : (signs tokens).2 <:+ tokens :=
  ⟨_, (signs_append tokens).1.symm⟩

theorem negations_suffix (tokens : List Token) : (negations tokens).2 <:+ tokens := by
  induction tokens with
  | nil => exact List.suffix_refl []
  | cons token rest ih =>
      unfold negations
      split
      · next heq =>
          obtain ⟨-, rfl⟩ := List.cons.inj heq
          exact ih.trans (List.suffix_cons _ _)
      · exact List.suffix_refl _

/-! ## The ladder -/

theorem Reader.Consumes.leftChain {operator : Reader BinaryOperator} {operand : Reader Expr}
    (hoperator : operator.Consumes) (hoperand : operand.Consumes) :
    (leftChain operator operand).Consumes := by
  rw [leftChain_eq]
  exact hoperand.followed (hoperator.step hoperand.leaves).leaves _

theorem Reader.Consumes.joined (op : Junction) (separator : Keyword) {operand : Reader Expr}
    (hoperand : operand.Consumes) : (joined op separator operand).Consumes := by
  rw [joined_eq]
  exact hoperand.followed ((keyword_consumes separator).step hoperand.leaves).leaves _

section Ladder

variable {inner : Reader Expr} (hinner : inner.Leaves)

include hinner

theorem elements_suffix (tokens : List Token) : (elements inner tokens).2 <:+ tokens := by
  have hend : ∀ rest, symbol .comma rest = none ∨
      ∃ after, symbol .comma rest = some ((), after) ∧ after <:+ rest := by
    intro rest
    cases hcomma : symbol .comma rest with
    | none => exact Or.inl rfl
    | some result =>
        exact Or.inr ⟨result.2, rfl, (symbol_consumes .comma).leaves rest () result.2 hcomma⟩
  unfold elements
  cases hfirst : inner tokens with
  | none =>
      simp only
      rcases hend tokens with hcomma | ⟨after, hcomma, hafter⟩
      · simp only [hcomma, List.suffix_refl]
      · simp only [hcomma]
        exact hafter
  | some result =>
      obtain ⟨first, middle⟩ := result
      have hitem := ((symbol_consumes .comma).step hinner).leaves
      have hlast := (Reader.many_leaves hitem middle).trans (hinner tokens first middle hfirst)
      simp only
      generalize Reader.many (Reader.step (symbol .comma) inner) middle = read at hlast ⊢
      obtain ⟨others, last⟩ := read
      rcases hend last with hcomma | ⟨after, hcomma, hafter⟩
      · simp only [hcomma]
        exact hlast
      · simp only [hcomma]
        exact hafter.trans hlast

theorem enclosed_consumes (bracket : Bracket) : (enclosed inner bracket).Consumes := by
  intro tokens contents rest hread
  unfold enclosed at hread
  simp only [Option.bind_eq_bind, Option.bind_eq_some_iff, Prod.exists, Option.some.injEq,
    Prod.mk.injEq] at hread
  obtain ⟨⟨⟩, opened, hopening, ⟨⟩, closed, hclosing, -, rfl⟩ := hread
  have hclosed := (symbol_consumes _).leaves _ _ _ hclosing
  exact .of_suffix (hclosed.trans (elements_suffix hinner opened))
    (symbol_consumes _ tokens () opened hopening)

theorem atom_consumes : (atom inner).Consumes := by
  intro tokens value rest hread
  unfold atom at hread
  split at hread
  case h_5 =>
    split at hread
    · next contents after hround =>
        obtain ⟨-, rfl⟩ := Prod.mk.inj (Option.some.inj hread)
        exact enclosed_consumes hinner .round tokens contents after hround
    · obtain ⟨⟨contents, after⟩, hsquare, heq⟩ := Option.map_eq_some_iff.mp hread
      obtain ⟨-, rfl⟩ := Prod.mk.inj heq
      exact enclosed_consumes hinner .square tokens contents after hsquare
  all_goals
    obtain ⟨-, rfl⟩ := Prod.mk.inj (Option.some.inj hread)
    exact .cons _ _

theorem trailer_consumes : (trailer inner).Consumes := by
  intro tokens found rest hread
  unfold trailer at hread
  split at hread
  · obtain ⟨-, rfl⟩ := Prod.mk.inj (Option.some.inj hread)
    exact .of_append (List.cons_ne_nil _ [_]) _
  · next opened =>
      simp only [Option.bind_eq_bind, Option.bind_eq_some_iff, Prod.exists,
        Option.some.injEq, Prod.mk.injEq] at hread
      obtain ⟨index, closed, hindex, ⟨⟩, after, hclosing, -, rfl⟩ := hread
      have hclosed := (symbol_consumes _).leaves _ _ _ hclosing
      exact .of_suffix (hclosed.trans (hinner opened index closed hindex)) (.cons _ opened)
  · obtain ⟨⟨contents, after⟩, hround, heq⟩ := Option.map_eq_some_iff.mp hread
    obtain ⟨-, rfl⟩ := Prod.mk.inj heq
    exact enclosed_consumes hinner .round _ contents after hround

theorem postfixed_consumes : (postfixed inner).Consumes := by
  rw [postfixed_eq]
  exact (atom_consumes hinner).followed (trailer_consumes hinner).leaves _

theorem signed_consumes : (signed inner).Consumes := by
  intro tokens found rest hread
  rw [signed_eq, Option.map_eq_some_iff] at hread
  obtain ⟨⟨value, after⟩, hvalue, heq⟩ := hread
  obtain ⟨-, rfl⟩ := Prod.mk.inj heq
  exact (postfixed_consumes hinner _ value after hvalue).trans_suffix (signs_suffix tokens)

theorem exponent_consumes : (exponent inner).Consumes := by
  intro tokens found rest hread
  unfold exponent at hread
  simp only [Option.bind_eq_bind, Option.bind_eq_some_iff, Prod.exists] at hread
  obtain ⟨⟨⟩, after, hpower, hsigned⟩ := hread
  exact (signed_consumes hinner after found rest hsigned).trans_suffix
    ((symbol_consumes .power).leaves tokens () after hpower)

theorem factor_consumes : (factor inner).Consumes := by
  rw [factor_followed]
  exact (signed_consumes hinner).followed (exponent_consumes hinner).leaves _

theorem term_consumes : (term inner).Consumes :=
  productOperator_consumes.leftChain (factor_consumes hinner)

theorem arithmetic_consumes : (arithmetic inner).Consumes :=
  sumOperator_consumes.leftChain (term_consumes hinner)

theorem comparison_consumes : (comparison inner).Consumes := by
  have harithmetic := arithmetic_consumes hinner
  rw [comparison_eq]
  exact harithmetic.followed (relation_consumes.step harithmetic.leaves).leaves _

theorem negation_consumes : (negation inner).Consumes := by
  intro tokens value rest hread
  rw [negation_eq, Option.map_eq_some_iff] at hread
  obtain ⟨⟨operand, after⟩, hoperand, heq⟩ := hread
  obtain ⟨-, rfl⟩ := Prod.mk.inj heq
  exact (comparison_consumes hinner _ operand after hoperand).trans_suffix
    (negations_suffix tokens)

theorem conjunction_consumes : (conjunction inner).Consumes :=
  (negation_consumes hinner).joined .and .and

theorem disjunction_consumes : (disjunction inner).Consumes :=
  (conjunction_consumes hinner).joined .or .or

end Ladder

theorem expression_consumes (depth : Nat) : Reader.Consumes (expression depth) := by
  induction depth with
  | zero => exact fun _ _ _ hread => absurd hread (by simp)
  | succ depth ih => exact disjunction_consumes ih.leaves

theorem readExpression_consumes : Reader.Consumes readExpression :=
  fun tokens => expression_consumes (tokens.length + 1) tokens

end RecordCondition
