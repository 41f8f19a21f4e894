import RecordCondition.Proofs.Spelling.Grammar

/-!
# What the readers take

Equations for the readers of the ladder, and what they take from the front of
the tokens.  A prefix and a power are told here by recursion on what follows
them, which is how they nest.
-/

namespace RecordCondition

/-! ## Single tokens -/

theorem symbol_eq_some_iff {expected : Symbol} {tokens rest : List Token} :
    symbol expected tokens = some ((), rest) ↔ tokens = .symbol expected :: rest := by
  constructor
  · intro hread
    unfold symbol at hread
    split at hread
    · next actual after =>
        by_cases heq : actual = expected
        · rw [if_pos heq] at hread
          simp only [Option.some.injEq, Prod.mk.injEq, true_and] at hread
          rw [heq, hread]
        · rw [if_neg heq] at hread
          exact absurd hread (by simp)
    · exact absurd hread (by simp)
  · rintro rfl
    simp [symbol]

theorem keyword_eq_some_iff {expected : Keyword} {tokens rest : List Token} :
    keyword expected tokens = some ((), rest) ↔ tokens = .keyword expected :: rest := by
  constructor
  · intro hread
    unfold keyword at hread
    split at hread
    · next actual after =>
        by_cases heq : actual = expected
        · rw [if_pos heq] at hread
          simp only [Option.some.injEq, Prod.mk.injEq, true_and] at hread
          rw [heq, hread]
        · rw [if_neg heq] at hread
          exact absurd hread (by simp)
    · exact absurd hread (by simp)
  · rintro rfl
    simp [keyword]

theorem relation_eq_some {tokens rest : List Token} {result : Relation}
    (hread : relation tokens = some (result, rest)) :
    tokens = result.tokens ++ rest := by
  unfold relation at hread
  split at hread <;>
    simp only [Option.some.injEq, Prod.mk.injEq, reduceCtorEq] at hread <;>
    obtain ⟨rfl, rfl⟩ := hread <;> rfl

theorem sumOperator_eq_some {tokens rest : List Token} {op : BinaryOperator}
    (hread : sumOperator tokens = some (op, rest)) :
    op.IsSum ∧ tokens = .symbol op.symbol :: rest := by
  unfold sumOperator at hread
  split at hread <;>
    simp only [Option.some.injEq, Prod.mk.injEq, reduceCtorEq] at hread <;>
    obtain ⟨rfl, rfl⟩ := hread <;> exact ⟨trivial, rfl⟩

theorem productOperator_eq_some {tokens rest : List Token} {op : BinaryOperator}
    (hread : productOperator tokens = some (op, rest)) :
    op.IsProduct ∧ tokens = .symbol op.symbol :: rest := by
  unfold productOperator at hread
  split at hread <;>
    simp only [Option.some.injEq, Prod.mk.injEq, reduceCtorEq] at hread <;>
    obtain ⟨rfl, rfl⟩ := hread <;> exact ⟨trivial, rfl⟩

theorem Token.prefixSign_eq_some_iff {token : Token} {op : PrefixOperator} :
    token.prefixSign = some op ↔ op ≠ .not ∧ token = op.token := by
  constructor
  · intro hsign
    unfold Token.prefixSign at hsign
    split at hsign <;>
      simp only [Option.some.injEq, reduceCtorEq] at hsign <;>
      subst hsign <;> exact ⟨by simp, rfl⟩
  · rintro ⟨hsign, rfl⟩
    cases op with
    | not => exact absurd rfl hsign
    | _ => rfl

/-! ## Runs -/

theorem Reader.step_eq_some_iff {ο : Type} {operator : Reader ο} {operand : Reader Expr}
    {tokens rest : List Token} {op : ο} {value : Expr} :
    Reader.step operator operand tokens = some ((op, value), rest) ↔
      ∃ middle, operator tokens = some (op, middle) ∧
        operand middle = some (value, rest) := by
  unfold Reader.step
  simp only [Option.bind_eq_bind, Option.bind_eq_some_iff, Prod.exists,
    Option.some.injEq, Prod.mk.injEq]
  constructor
  · rintro ⟨found, middle, hop, right, after, hvalue, ⟨rfl, rfl⟩, rfl⟩
    exact ⟨middle, hop, hvalue⟩
  · rintro ⟨middle, hop, hvalue⟩
    exact ⟨op, middle, hop, value, rest, hvalue, ⟨rfl, rfl⟩, rfl⟩

theorem Reader.many_of_none {α : Type} {item : Reader α} {tokens : List Token}
    (hread : item tokens = none) : Reader.many item tokens = ([], tokens) := by
  rw [Reader.many, hread]

theorem Reader.many_of_some {α : Type} {item : Reader α} {tokens rest : List Token}
    {first : α} (hread : item tokens = some (first, rest))
    (hshorter : rest.length < tokens.length) :
    Reader.many item tokens =
      (first :: (Reader.many item rest).1, (Reader.many item rest).2) := by
  rw [Reader.many, hread]
  simp only [hshorter, if_true]

/-! ## Prefixes -/

theorem signs_of_prefixSign {token : Token} {op : PrefixOperator}
    (hsign : token.prefixSign = some op) (rest : List Token) :
    signs (token :: rest) = (op :: (signs rest).1, (signs rest).2) := by
  rw [signs, hsign]

theorem signs_of_not_prefixSign {token : Token}
    (hsign : token.prefixSign = none) (rest : List Token) :
    signs (token :: rest) = ([], token :: rest) := by
  rw [signs, hsign]

theorem signs_cases (tokens : List Token) :
    (∃ token op rest, tokens = token :: rest ∧ token.prefixSign = some op) ∨
      signs tokens = ([], tokens) := by
  cases tokens with
  | nil => exact Or.inr rfl
  | cons token rest =>
      cases hsign : token.prefixSign with
      | some op => exact Or.inl ⟨token, op, rest, rfl, hsign⟩
      | none => exact Or.inr (signs_of_not_prefixSign hsign rest)

theorem signs_append (tokens : List Token) :
    tokens = (signs tokens).1.map PrefixOperator.token ++ (signs tokens).2 ∧
      ∀ op ∈ (signs tokens).1, op ≠ .not := by
  induction tokens with
  | nil => exact ⟨rfl, fun _ hmem => absurd hmem List.not_mem_nil⟩
  | cons token tokens ih =>
      cases hsign : token.prefixSign with
      | none =>
          rw [signs_of_not_prefixSign hsign]
          exact ⟨rfl, fun _ hmem => absurd hmem List.not_mem_nil⟩
      | some op =>
          obtain ⟨hop, rfl⟩ := Token.prefixSign_eq_some_iff.mp hsign
          rw [signs_of_prefixSign hsign]
          exact ⟨congrArg (_ :: ·) ih.1, List.forall_mem_cons.mpr ⟨hop, ih.2⟩⟩

theorem signs_length_le (tokens : List Token) :
    (signs tokens).2.length ≤ tokens.length := by
  induction tokens with
  | nil => exact Nat.le_refl _
  | cons token rest ih =>
      cases hsign : token.prefixSign with
      | some op =>
          rw [signs_of_prefixSign hsign, List.length_cons]
          exact Nat.le_succ_of_le ih
      | none =>
          exact Nat.le_of_eq (by rw [signs_of_not_prefixSign hsign])

variable (inner : Reader Expr)

theorem signed_eq (tokens : List Token) :
    signed inner tokens =
      (postfixed inner (signs tokens).2).map fun (value, rest) =>
        (((signs tokens).1, value), rest) := by
  unfold signed
  cases signs tokens with
  | mk ops rest =>
      dsimp only
      cases postfixed inner rest <;> rfl

def exponent : Reader (List PrefixOperator × Expr) := fun tokens => do
  let ((), rest) ← symbol .power tokens
  signed inner rest

theorem factor_eq (tokens : List Token) :
    factor inner tokens =
      (signed inner tokens).map fun (first, rest) =>
        (.powers first (Reader.many (exponent inner) rest).1,
          (Reader.many (exponent inner) rest).2) := by
  unfold factor
  cases signed inner tokens <;> rfl

theorem Expr.powers_cons (op : PrefixOperator) (ops : List PrefixOperator)
    (value : Expr) (exponents : List (List PrefixOperator × Expr)) :
    Expr.powers (op :: ops, value) exponents =
      .prefixed op (Expr.powers (ops, value) exponents) := by
  cases exponents <;> rfl

theorem factor_sign {token : Token} {op : PrefixOperator}
    (hsign : token.prefixSign = some op) (rest : List Token) :
    factor inner (token :: rest) =
      (factor inner rest).map fun (value, after) => (.prefixed op value, after) := by
  rw [factor_eq, factor_eq, signed_eq, signed_eq, signs_of_prefixSign hsign]
  cases postfixed inner (signs rest).2 with
  | none => rfl
  | some result =>
      simp only [Option.map_some, Expr.powers_cons]

theorem exponent_of_power (tokens : List Token) :
    exponent inner (.symbol .power :: tokens) = signed inner tokens := by
  simp [exponent, symbol]

theorem exponent_eq_none {tokens : List Token}
    (hpower : ∀ rest, tokens ≠ .symbol .power :: rest) :
    exponent inner tokens = none := by
  unfold exponent
  cases hsymbol : symbol .power tokens with
  | none => rfl
  | some result => exact absurd (symbol_eq_some_iff.mp hsymbol) (hpower result.2)

/-- A base without signs, when no power follows it. -/
theorem factor_of_base {tokens rest : List Token} {base : Expr}
    (hsigns : signs tokens = ([], tokens))
    (hbase : postfixed inner tokens = some (base, rest))
    (hpower : ∀ after, rest ≠ .symbol .power :: after) :
    factor inner tokens = some (base, rest) := by
  rw [factor_eq, signed_eq, hsigns, hbase]
  simp only [Option.map_some,
    Reader.many_of_none (exponent_eq_none inner hpower), Expr.powers, List.foldr_nil]

/-- A base without signs, when a power follows it: the exponent is a factor, if
there is one. -/
theorem factor_of_power {tokens after : List Token} {base : Expr}
    (hsigns : signs tokens = ([], tokens))
    (hbase : postfixed inner tokens = some (base, .symbol .power :: after))
    (hshorter : ∀ value rest, signed inner after = some (value, rest) →
      rest.length ≤ after.length) :
    factor inner tokens =
      match factor inner after with
      | some (value, rest) => some (.binary .power base value, rest)
      | none => some (base, .symbol .power :: after) := by
  rw [factor_eq inner tokens, signed_eq inner tokens, hsigns, hbase,
    factor_eq inner after]
  have hexponent := exponent_of_power inner after
  cases hsigned : signed inner after with
  | none =>
      rw [hsigned] at hexponent
      simp only [Option.map_some, Option.map_none, Reader.many_of_none hexponent,
        Expr.powers, List.foldr_nil]
  | some result =>
      obtain ⟨first, rest⟩ := result
      rw [hsigned] at hexponent
      have hle := hshorter first rest hsigned
      have hlt : rest.length < (Token.symbol .power :: after).length := by
        rw [List.length_cons]
        omega
      simp only [Option.map_some, Reader.many_of_some hexponent hlt, Expr.powers,
        List.foldr_nil]

theorem factor_eq_none {tokens : List Token}
    (hsigns : signs tokens = ([], tokens))
    (hbase : postfixed inner tokens = none) :
    factor inner tokens = none := by
  rw [factor_eq, signed_eq, hsigns, hbase]
  rfl

theorem negation_eq (tokens : List Token) :
    negation inner tokens =
      (comparison inner (negations tokens).2).map fun (value, rest) =>
        ((List.replicate (negations tokens).1 PrefixOperator.not).foldr .prefixed value,
          rest) := by
  unfold negation
  cases negations tokens with
  | mk count rest =>
      dsimp only
      cases comparison inner rest <;> rfl

theorem negation_not (rest : List Token) :
    negation inner (.keyword .not :: rest) =
      (negation inner rest).map fun (value, after) => (.prefixed .not value, after) := by
  rw [negation_eq, negation_eq, negations]
  cases comparison inner (negations rest).2 with
  | none => rfl
  | some result =>
      simp only [Option.map_some, List.replicate_succ, List.foldr_cons]

theorem negation_of_ne_not {tokens : List Token}
    (hnot : ∀ rest, tokens ≠ .keyword .not :: rest) :
    negation inner tokens = comparison inner tokens := by
  have hnegations : negations tokens = (0, tokens) := by
    unfold negations
    split
    · next rest => exact absurd rfl (hnot rest)
    · rfl
  rw [negation_eq, hnegations]
  cases comparison inner tokens <;> rfl

end RecordCondition
