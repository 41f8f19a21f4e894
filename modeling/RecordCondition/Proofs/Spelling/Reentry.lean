import RecordCondition.Proofs.Spelling.Consumption
import RecordCondition.Proofs.Spelling.Ladder

/-!
# The readers that are entered again

Three readers of the ladder are entered again from within themselves: the one for a whole
expression inside brackets, the one for what `not` negates behind another `not`, and the
one for a factor behind a sign or a power.  Here one turn of the ladder is a function of
the three readers that it enters again.  It enters them behind at least one token only, so
it has one fixed point, and that is the ladder: what bounds the depth of brackets in the
definition of `expression` never cuts a reading short.
-/

namespace RecordCondition

variable {α β γ : Type}

/-! ## Signs -/

/-- A sign in front of a factor. -/
def signOperator : Reader PrefixOperator
  | token :: rest => token.prefixSign.map fun op => (op, rest)
  | [] => none

theorem signOperator_consumes : signOperator.Consumes := by
  intro tokens op rest hread
  cases tokens with
  | nil => cases hread
  | cons token tail =>
      obtain ⟨found, -, heq⟩ := Option.map_eq_some_iff.mp hread
      obtain ⟨-, rfl⟩ := Prod.mk.inj heq
      exact .cons token tail

theorem Reader.step_of_some {operator : Reader α} {tokens middle : List Token} {op : α}
    (hop : operator tokens = some (op, middle)) (operand : Reader Expr) :
    Reader.step operator operand tokens =
      (operand middle).map fun (right, rest) => ((op, right), rest) := by
  unfold Reader.step
  rw [hop]
  cases hright : operand middle <;> simp [hright]

/-! ## Readers that enter others -/

/-- The readers that the ladder enters again. -/
structure Entries where
  test : Reader Expr
  negated : Reader Expr
  factor : Reader Expr

namespace Entries

def AgreesAt (e l : Entries) (tokens : List Token) : Prop :=
  e.test tokens = l.test tokens ∧ e.negated tokens = l.negated tokens ∧
    e.factor tokens = l.factor tokens

structure Leaves (l : Entries) : Prop where
  test : l.test.Leaves
  negated : l.negated.Leaves
  factor : l.factor.Leaves

/-- A reader that may enter the readers it is built from at once: what it reads depends on
what they read at the ends of its tokens. -/
structure Enters (build : Entries → Reader α) : Prop where
  leaves : ∀ l, l.Leaves → (build l).Leaves
  agrees : ∀ e l tokens, l.Leaves → (∀ rest, rest <:+ tokens → e.AgreesAt l rest) →
    build e tokens = build l tokens

/-- A reader that takes a token before it enters any of the readers it is built from: what
it reads depends on what they read behind the front of its tokens. -/
structure Guarded (build : Entries → Reader α) : Prop where
  consumes : ∀ l, l.Leaves → (build l).Consumes
  agrees : ∀ e l tokens, l.Leaves → (∀ rest, Behind rest tokens → e.AgreesAt l rest) →
    build e tokens = build l tokens

theorem Guarded.enters {build : Entries → Reader α} (hbuild : Guarded build) :
    Enters build where
  leaves l hl := (hbuild.consumes l hl).leaves
  agrees e l tokens hl hagrees :=
    hbuild.agrees e l tokens hl fun rest hrest => hagrees rest hrest.1

theorem enters_test : Enters test :=
  ⟨fun _ hl => hl.test,
    fun _ _ tokens _ hagrees => (hagrees tokens (List.suffix_refl tokens)).1⟩

theorem enters_negated : Enters negated :=
  ⟨fun _ hl => hl.negated,
    fun _ _ tokens _ hagrees => (hagrees tokens (List.suffix_refl tokens)).2.1⟩

theorem enters_factor : Enters factor :=
  ⟨fun _ hl => hl.factor,
    fun _ _ tokens _ hagrees => (hagrees tokens (List.suffix_refl tokens)).2.2⟩

/-! ## Combinations of readers -/

theorem Guarded.step {operator : Reader α} {operand : Entries → Reader Expr}
    (hoperator : operator.Consumes) (hoperand : Enters operand) :
    Guarded fun e => Reader.step operator (operand e) where
  consumes l hl := hoperator.step (hoperand.leaves l hl)
  agrees e l tokens hl hagrees := by
    unfold Reader.step
    cases hop : operator tokens with
    | none => rfl
    | some result =>
        have hbehind := hoperator tokens result.1 result.2 hop
        have hoperands := hoperand.agrees e l result.2 hl fun rest hrest =>
          hagrees rest (.of_suffix hrest hbehind)
        simp only [Option.bind_eq_bind, Option.bind_some, hoperands]

theorem Guarded.many_eq {item : Entries → Reader α} (hitem : Guarded item) {e l : Entries}
    (hl : l.Leaves) {tokens : List Token}
    (hagrees : ∀ rest, Behind rest tokens → e.AgreesAt l rest) :
    Reader.many (item e) tokens = Reader.many (item l) tokens := by
  induction tokens using Reader.many.induct (item l) with
  | case1 tokens hread =>
      rw [Reader.many_of_none hread,
        Reader.many_of_none ((hitem.agrees e l tokens hl hagrees).trans hread)]
  | case2 tokens first rest hread hshorter ih =>
      have hbehind := hitem.consumes l hl tokens first rest hread
      rw [Reader.many_of_some hread hshorter,
        Reader.many_of_some ((hitem.agrees e l tokens hl hagrees).trans hread) hshorter,
        ih fun last hlast => hagrees last (hlast.trans_suffix hbehind.1)]
  | case3 tokens first rest hread hlonger =>
      exact absurd (hitem.consumes l hl tokens first rest hread).2 hlonger

theorem Guarded.followed {first : Entries → Reader α} {item : Entries → Reader β}
    (hfirst : Guarded first) (hitem : Guarded item) (combine : α → List β → γ) :
    Guarded fun e => (first e).followed (item e) combine where
  consumes l hl := (hfirst.consumes l hl).followed (hitem.consumes l hl).leaves combine
  agrees e l tokens hl hagrees := by
    unfold Reader.followed
    rw [hfirst.agrees e l tokens hl hagrees]
    cases hread : first l tokens with
    | none => rfl
    | some result =>
        have hbehind := hfirst.consumes l hl tokens result.1 result.2 hread
        simp only [Option.map_some, hitem.many_eq hl fun rest hrest =>
          hagrees rest (hrest.trans_suffix hbehind.1)]

theorem Guarded.either {first second : Entries → Reader α} (hfirst : Guarded first)
    (hsecond : Guarded second) : Guarded fun e => (first e).either (second e) where
  consumes l hl := (hfirst.consumes l hl).either (hsecond.consumes l hl)
  agrees e l tokens hl hagrees := by
    unfold Reader.either
    rw [hfirst.agrees e l tokens hl hagrees, hsecond.agrees e l tokens hl hagrees]

theorem Guarded.mapped {build : Entries → Reader α} (hbuild : Guarded build) (f : α → β) :
    Guarded fun e => (build e).mapped f where
  consumes l hl := (hbuild.consumes l hl).mapped f
  agrees e l tokens hl hagrees := by
    unfold Reader.mapped
    rw [hbuild.agrees e l tokens hl hagrees]

/-! ## Operands -/

theorem guarded_comma : Guarded fun e => Reader.step (symbol .comma) e.test :=
  .step (symbol_consumes .comma) enters_test

theorem elements_agrees {e l : Entries} (hl : l.Leaves) {tokens : List Token}
    (hagrees : ∀ rest, rest <:+ tokens → e.AgreesAt l rest) :
    elements e.test tokens = elements l.test tokens := by
  unfold elements
  rw [enters_test.agrees e l tokens hl hagrees]
  cases hfirst : l.test tokens with
  | none => rfl
  | some result =>
      have hmiddle := hl.test tokens result.1 result.2 hfirst
      simp only [guarded_comma.many_eq hl fun rest hrest => hagrees rest (hrest.1.trans hmiddle)]

theorem guarded_enclosed (bracket : Bracket) : Guarded fun e => enclosed e.test bracket where
  consumes l hl := enclosed_consumes hl.test bracket
  agrees e l tokens hl hagrees := by
    unfold enclosed
    cases hopening : symbol (.opening bracket) tokens with
    | none => rfl
    | some result =>
        have hbehind := symbol_consumes _ tokens () result.2 hopening
        simp only [Option.bind_eq_bind, Option.bind_some,
          elements_agrees hl fun rest hrest => hagrees rest (.of_suffix hrest hbehind)]

theorem guarded_atom : Guarded fun e => atom e.test where
  consumes l hl := atom_consumes hl.test
  agrees e l tokens hl hagrees := by
    unfold atom
    split
    case h_5 =>
      rw [(guarded_enclosed .round).agrees e l _ hl hagrees,
        (guarded_enclosed .square).agrees e l _ hl hagrees]
    all_goals rfl

theorem guarded_trailer : Guarded fun e => trailer e.test where
  consumes l hl := trailer_consumes hl.test
  agrees e l tokens hl hagrees := by
    unfold trailer
    split
    · rfl
    · next opened => rw [(hagrees opened (.cons _ opened)).1]
    · rw [(guarded_enclosed .round).agrees e l _ hl hagrees]

theorem guarded_postfixed : Guarded fun e => postfixed e.test := by
  simp only [postfixed_eq]
  exact guarded_atom.followed guarded_trailer _

/-! ## One turn of the ladder -/

/-- An operand and, behind `**`, the factor to whose power it is raised. -/
def power (e : Entries) : Reader Expr := fun tokens =>
  (postfixed e.test tokens).map fun base =>
    match Reader.step (symbol .power) e.factor base.2 with
    | some (exponent, rest) => (.binary .power base.1 exponent.2, rest)
    | none => base

def factorOnce (e : Entries) : Reader Expr :=
  e.power.either ((Reader.step signOperator e.factor).mapped fun step => .prefixed step.1 step.2)

def term (e : Entries) : Reader Expr :=
  leftChain productOperator e.factorOnce

def arithmetic (e : Entries) : Reader Expr :=
  leftChain sumOperator e.term

def comparison (e : Entries) : Reader Expr :=
  e.arithmetic.followed (Reader.step relation e.arithmetic) .chain

def negatedOnce (e : Entries) : Reader Expr :=
  ((Reader.step (keyword .not) e.negated).mapped fun step => .prefixed .not step.2).either
    e.comparison

def conjunction (e : Entries) : Reader Expr :=
  joined .and .and e.negatedOnce

def disjunction (e : Entries) : Reader Expr :=
  joined .or .or e.conjunction

/-- The readers of the ladder, each built up to where it enters one of them again. -/
def once (e : Entries) : Entries :=
  ⟨e.disjunction, e.negatedOnce, e.factorOnce⟩

theorem guarded_power : Guarded power where
  consumes l hl := by
    intro tokens value rest hread
    obtain ⟨⟨base, middle⟩, hbase, heq⟩ := Option.map_eq_some_iff.mp hread
    have hbehind := guarded_postfixed.consumes l hl tokens base middle hbase
    have hstep := ((symbol_consumes .power).step hl.factor).leaves middle
    dsimp only at heq
    split at heq
    · next exponent last hexponent =>
        obtain ⟨-, rfl⟩ := Prod.mk.inj heq
        exact .of_suffix (hstep _ _ hexponent) hbehind
    · obtain ⟨-, rfl⟩ := Prod.mk.inj heq
      exact hbehind
  agrees e l tokens hl hagrees := by
    unfold power
    rw [guarded_postfixed.agrees e l tokens hl hagrees]
    cases hbase : postfixed l.test tokens with
    | none => rfl
    | some result =>
        have hbehind := guarded_postfixed.consumes l hl tokens result.1 result.2 hbase
        have hstep := (Guarded.step (symbol_consumes .power) enters_factor).agrees e l result.2 hl
          fun rest hrest => hagrees rest (hrest.trans_suffix hbehind.1)
        simp only [Option.map_some, hstep]

theorem guarded_factorOnce : Guarded factorOnce :=
  guarded_power.either ((Guarded.step signOperator_consumes enters_factor).mapped _)

theorem Guarded.leftChain {operator : Reader BinaryOperator} {operand : Entries → Reader Expr}
    (hoperator : operator.Consumes) (hoperand : Guarded operand) :
    Guarded fun e => leftChain operator (operand e) := by
  simp only [leftChain_eq]
  exact hoperand.followed (.step hoperator hoperand.enters) _

theorem Guarded.joined (op : Junction) (separator : Keyword) {operand : Entries → Reader Expr}
    (hoperand : Guarded operand) : Guarded fun e => joined op separator (operand e) := by
  simp only [joined_eq]
  exact hoperand.followed (.step (keyword_consumes separator) hoperand.enters) _

theorem guarded_term : Guarded term :=
  .leftChain productOperator_consumes guarded_factorOnce

theorem guarded_arithmetic : Guarded arithmetic :=
  .leftChain sumOperator_consumes guarded_term

theorem guarded_comparison : Guarded comparison :=
  guarded_arithmetic.followed (.step relation_consumes guarded_arithmetic.enters) _

theorem guarded_negatedOnce : Guarded negatedOnce :=
  ((Guarded.step (keyword_consumes .not) enters_negated).mapped _).either guarded_comparison

theorem guarded_conjunction : Guarded conjunction :=
  .joined .and .and guarded_negatedOnce

theorem guarded_disjunction : Guarded disjunction :=
  .joined .or .or guarded_conjunction

/-- What one turn reads depends on what the readers read behind at least one token. -/
theorem once_agreesAt {e l : Entries} {tokens : List Token} (hl : l.Leaves)
    (hagrees : ∀ rest, Behind rest tokens → e.AgreesAt l rest) :
    e.once.AgreesAt l.once tokens :=
  ⟨guarded_disjunction.agrees e l tokens hl hagrees,
    guarded_negatedOnce.agrees e l tokens hl hagrees,
    guarded_factorOnce.agrees e l tokens hl hagrees⟩

end Entries

/-! ## The ladder -/

theorem Reader.followed_eq_none {first : Reader α} {tokens : List Token}
    (hfirst : first tokens = none) (item : Reader β) (combine : α → List β → γ) :
    first.followed item combine tokens = none := by
  unfold Reader.followed
  rw [hfirst]
  rfl

theorem postfixed_eq_none {inner : Reader Expr} {tokens : List Token}
    (hatom : atom inner tokens = none) : postfixed inner tokens = none := by
  rw [postfixed_eq]
  exact Reader.followed_eq_none hatom _ _

theorem postfixed_of_prefixSign {token : Token} {op : PrefixOperator}
    (hsign : token.prefixSign = some op) (inner : Reader Expr) (rest : List Token) :
    postfixed inner (token :: rest) = none := by
  obtain ⟨hop, rfl⟩ := Token.prefixSign_eq_some_iff.mp hsign
  apply postfixed_eq_none
  cases op with
  | not => exact absurd rfl hop
  | _ => rfl

theorem signOperator_of_prefixSign {token : Token} {op : PrefixOperator}
    (hsign : token.prefixSign = some op) (rest : List Token) :
    signOperator (token :: rest) = some (op, rest) := by
  rw [signOperator, hsign, Option.map_some]

theorem signOperator_eq_none {tokens : List Token} (hsigns : signs tokens = ([], tokens)) :
    signOperator tokens = none := by
  cases tokens with
  | nil => rfl
  | cons token rest =>
      cases hsign : token.prefixSign with
      | none => rw [signOperator, hsign, Option.map_none]
      | some op =>
          rw [signs_of_prefixSign hsign] at hsigns
          exact absurd (Prod.mk.inj hsigns).1 (List.cons_ne_nil _ _)

namespace Entries

variable {e : Entries}

/-- A factor read with all the signs and powers at once is one that is entered again behind
each of them. -/
theorem factorOnce_eq (htest : e.test.Leaves)
    (hfactor : e.factor = RecordCondition.factor e.test) :
    e.factorOnce = RecordCondition.factor e.test := by
  funext tokens
  unfold factorOnce Reader.either power
  -- A sign begins no operand, so in front of one the first alternative fails.
  rcases signs_cases tokens with ⟨token, op, rest, rfl, hsign⟩ | hsigns
  · rw [postfixed_of_prefixSign hsign, factor_sign e.test hsign, hfactor, Reader.mapped,
      Reader.step_of_some (signOperator_of_prefixSign hsign rest)]
    cases RecordCondition.factor e.test rest <;> rfl
  · cases hbase : postfixed e.test tokens with
    | none =>
        rw [factor_eq_none e.test hsigns hbase, Reader.mapped,
          Reader.step_eq_none (signOperator_eq_none hsigns)]
        rfl
    | some result =>
        obtain ⟨base, middle⟩ := result
        by_cases hpower : ∃ after, middle = .symbol .power :: after
        · obtain ⟨after, rfl⟩ := hpower
          rw [factor_of_power e.test hsigns hbase fun value rest hsigned =>
            ((signed_consumes htest).leaves after value rest hsigned).length_le, hfactor,
            Option.map_some]
          dsimp only
          rw [Reader.step_of_some (symbol_eq_some_iff.mpr rfl)]
          cases RecordCondition.factor e.test after <;> rfl
        · rw [factor_of_base e.test hsigns hbase (not_exists.mp hpower), Option.map_some]
          dsimp only
          rw [Reader.step_eq_none (symbol_eq_none (not_exists.mp hpower))]
          rfl

theorem comparison_eq (htest : e.test.Leaves)
    (hfactor : e.factor = RecordCondition.factor e.test) :
    e.comparison = RecordCondition.comparison e.test := by
  rw [RecordCondition.comparison_eq, comparison, arithmetic, term, factorOnce_eq htest hfactor]
  rfl

/-- No comparison begins with `not`. -/
theorem comparison_of_not (e : Entries) (rest : List Token) :
    e.comparison (.keyword .not :: rest) = none := by
  have hbase : postfixed e.test (.keyword .not :: rest) = none := postfixed_eq_none rfl
  have hfactor : e.factorOnce (.keyword .not :: rest) = none := by
    unfold factorOnce Reader.either power
    rw [hbase, Reader.mapped, Reader.step_eq_none (signOperator_eq_none rfl)]
    rfl
  unfold comparison arithmetic term
  simp only [leftChain_eq]
  exact Reader.followed_eq_none
    (Reader.followed_eq_none (Reader.followed_eq_none hfactor _ _) _ _) _ _

theorem negatedOnce_eq (htest : e.test.Leaves) (hnegated : e.negated = negation e.test)
    (hfactor : e.factor = RecordCondition.factor e.test) :
    e.negatedOnce = negation e.test := by
  funext tokens
  unfold negatedOnce Reader.either
  by_cases hnot : ∃ rest, tokens = .keyword .not :: rest
  · obtain ⟨rest, rfl⟩ := hnot
    rw [e.comparison_of_not, negation_not, Reader.mapped, hnegated,
      Reader.step_of_some (keyword_eq_some_iff.mpr rfl)]
    cases negation e.test rest <;> rfl
  · rw [negation_of_ne_not e.test (not_exists.mp hnot), e.comparison_eq htest hfactor,
      Reader.mapped, Reader.step_eq_none (keyword_eq_none (not_exists.mp hnot))]
    rfl

/-- The entries of a ladder with a reader for the expressions in its brackets. -/
def ofInner (inner : Reader Expr) : Entries :=
  ⟨inner, negation inner, RecordCondition.factor inner⟩

theorem leaves_ofInner {inner : Reader Expr} (hinner : inner.Leaves) : (ofInner inner).Leaves :=
  ⟨hinner, (negation_consumes hinner).leaves, (factor_consumes hinner).leaves⟩

theorem once_ofInner {inner : Reader Expr} (hinner : inner.Leaves) :
    (ofInner inner).once =
      ⟨RecordCondition.disjunction inner, negation inner, RecordCondition.factor inner⟩ := by
  have hnegated : (ofInner inner).negatedOnce = negation inner :=
    negatedOnce_eq hinner rfl rfl
  have hfactor : (ofInner inner).factorOnce = RecordCondition.factor inner :=
    factorOnce_eq hinner rfl
  rw [once, disjunction, conjunction, hnegated, hfactor]
  rfl

/-- The whole of a text, read by the readers that the ladder enters again. -/
def parse (e : Entries) (text : String) : Except ParseError Expr :=
  let tokens := (lex text).map Lexeme.token
  match e.test tokens with
  | some (value, []) => .ok value
  | some (_, rest) => .error ⟨positionBefore text rest.length⟩
  | none => .error ⟨positionBefore text (signs tokens).2.length⟩

/-- The readers of the ladder that are entered again. -/
def ladder : Entries :=
  ofInner readExpression

theorem leaves_ladder : ladder.Leaves :=
  leaves_ofInner readExpression_consumes.leaves

theorem once_ladder_eq :
    ladder.once = ⟨RecordCondition.disjunction readExpression, negation readExpression,
      RecordCondition.factor readExpression⟩ :=
  once_ofInner readExpression_consumes.leaves

theorem parse_ladder (text : String) : ladder.parse text = Expr.parse text := by
  change parse ⟨readExpression, _, _⟩ text = Expr.parse text
  unfold parse Expr.parse unread
  dsimp only
  cases readExpression ((lex text).map Lexeme.token) with
  | none => rfl
  | some result =>
      obtain ⟨value, rest⟩ := result
      cases rest <;> rfl

/-- With enough levels of brackets for all the tokens, any number of them reads the same. -/
theorem agreesAt_ladder {tokens : List Token} :
    ∀ depth, tokens.length < depth → (ofInner (expression depth)).AgreesAt ladder tokens := by
  induction hlength : tokens.length using Nat.strongRecOn generalizing tokens with
  | ind length ih =>
      -- One turn on these tokens enters the readers on shorter ones, for which one level
      -- less is enough.
      have honce : ∀ depth, length ≤ depth →
          (ofInner (expression depth)).once.AgreesAt ladder.once tokens := by
        intro depth hdepth
        apply once_agreesAt leaves_ladder
        intro rest hrest
        have hshorter : rest.length < length := hlength ▸ hrest.2
        exact ih rest.length hshorter rfl depth (Nat.lt_of_lt_of_le hshorter hdepth)
      simp only [once_ofInner (expression_consumes _).leaves, once_ladder_eq] at honce
      -- The ladder reads these tokens with as many levels as there are tokens.
      have htest : readExpression tokens = RecordCondition.disjunction readExpression tokens :=
        (honce tokens.length (Nat.le_of_eq hlength.symm)).1
      intro depth hdepth
      cases depth with
      | zero => exact absurd hdepth (Nat.not_lt_zero length)
      | succ level =>
          obtain ⟨-, hnegated, hfactor⟩ := honce (level + 1) (Nat.le_of_lt hdepth)
          obtain ⟨hlevel, -, -⟩ := honce level (Nat.le_of_lt_succ hdepth)
          exact ⟨hlevel.trans htest.symm, hnegated, hfactor⟩

theorem expression_eq_readExpression {depth : Nat} {tokens : List Token}
    (hdepth : tokens.length < depth) : expression depth tokens = readExpression tokens :=
  (agreesAt_ladder depth hdepth).1

/-- The ladder is what one turn makes of it. -/
theorem once_ladder : ladder.once = ladder := by
  have htest : RecordCondition.disjunction readExpression = readExpression := by
    funext tokens
    have honce : (ofInner (expression (tokens.length + 1))).once.AgreesAt ladder.once tokens := by
      apply once_agreesAt leaves_ladder
      intro rest hrest
      exact agreesAt_ladder _ (Nat.lt_succ_of_lt hrest.2)
    rw [once_ofInner (expression_consumes _).leaves, once_ladder_eq] at honce
    calc
      RecordCondition.disjunction readExpression tokens =
          expression (tokens.length + 2) tokens := honce.1.symm
      _ = readExpression tokens := expression_eq_readExpression (by omega)
  rw [once_ladder_eq, htest]
  rfl

/-- Nothing but the ladder is what one turn makes of it. -/
theorem eq_ladder {e : Entries} (honce : e.once = e) : e = ladder := by
  have hagrees : ∀ tokens, e.AgreesAt ladder tokens := by
    intro tokens
    induction hlength : tokens.length using Nat.strongRecOn generalizing tokens with
    | ind length ih =>
        have hturn := once_agreesAt leaves_ladder fun rest (hrest : Behind rest tokens) =>
          ih rest.length (hlength ▸ hrest.2) rest rfl
        rw [honce, once_ladder] at hturn
        exact hturn
  obtain ⟨test, negated, factor⟩ := e
  unfold ladder ofInner at hagrees ⊢
  rw [Entries.mk.injEq]
  exact ⟨funext fun tokens => (hagrees tokens).1, funext fun tokens => (hagrees tokens).2.1,
    funext fun tokens => (hagrees tokens).2.2⟩

end Entries

end RecordCondition
