import RecordCondition.Proofs.Nesting.Tally

/-!
# A spelling is counted to its depth

Counting over a spelling starts from the prefixes that are in force in front of
it and reaches the depth of the expression beyond them.  The induction is over
the spelling.  What carries it is which of the prefixes in force a level of
precedence may find in front of it, and which it leaves in force behind it.
-/

namespace RecordCondition

namespace Tally

/-- A spelling of the level may stand here: only factors stand behind signs, and
only negations behind `not`. -/
structure Ready (tally : Tally) (level : Level) : Prop where
  afterOperand : tally.afterOperand = false
  afterIs : Level.negation.rank ≤ level.rank → tally.afterIs = false
  run : Level.term.rank ≤ level.rank → tally.run = 0
  negations : Level.conjunction.rank ≤ level.rank → tally.negations = 0

structure Settled (before after : Tally) (level : Level) : Prop where
  outer : after.outer = before.outer
  afterOperand : after.afterOperand = true
  negations : level.rank ≤ Level.comparison.rank → after.negations = before.negations
  run : level.rank ≤ Level.postfixed.rank → after.run = before.run

theorem Ready.mono {tally : Tally} {level looser : Level} (hready : tally.Ready looser)
    (hrank : level.rank ≤ looser.rank) : tally.Ready level where
  afterOperand := hready.afterOperand
  afterIs := fun hle => hready.afterIs (Nat.le_trans hle hrank)
  run := fun hle => hready.run (Nat.le_trans hle hrank)
  negations := fun hle => hready.negations (Nat.le_trans hle hrank)

theorem Settled.mono {before after : Tally} {level looser : Level}
    (hsettled : before.Settled after level) (hrank : level.rank ≤ looser.rank) :
    before.Settled after looser where
  outer := hsettled.outer
  afterOperand := hsettled.afterOperand
  negations := fun hle => hsettled.negations (Nat.le_trans hrank hle)
  run := fun hle => hsettled.run (Nat.le_trans hrank hle)

theorem ready_separate (tally : Tally) (level : Level) : tally.separate.Ready level :=
  ⟨rfl, fun _ => rfl, fun _ => rfl, fun _ => rfl⟩

theorem ready_enter (tally : Tally) (level : Level) : tally.enter.Ready level :=
  ⟨rfl, fun _ => rfl, fun _ => rfl, fun _ => rfl⟩

theorem level_enter (tally : Tally) : tally.enter.level = tally.level + 1 := by
  simp only [level, outerLevel, enter, List.map_cons, List.sum_cons]
  omega

theorem level_separate (tally : Tally) : tally.separate.level = tally.outerLevel := rfl

theorem outerLevel_of_outer {before after : Tally} (houter : after.outer = before.outer) :
    after.outerLevel = before.outerLevel := by
  rw [outerLevel, outerLevel, houter]

theorem Ready.level_eq {tally : Tally} (hready : tally.Ready .conjunction) :
    tally.level = tally.outerLevel := by
  rw [level, hready.run (by decide), hready.negations (by decide)]
  rfl

theorem leave_of_outer {tally : Tally} {negations run : Nat} {outer : List (Nat × Nat)}
    (houter : tally.outer = (negations, run) :: outer) :
    tally.leave =
      { outer := outer, negations := negations, run := run, afterOperand := true } := by
  rw [leave, houter]

end Tally

/-! ## The parts of a spelling -/

def Phrase.Reaches : Phrase → List Token → Prop
  | .expr level e, tokens => ∀ tally : Tally, tally.Ready level →
      tally.Settled (tally.takeAll tokens) level ∧
        tally.level + e.depth ≤ tally.deepest tokens
  | .followers separator _ values, tokens =>
      (∀ tally : Tally, tally.take separator = tally.separate) →
      ∀ tally : Tally, tally.afterOperand = true →
        ((tally.takeAll tokens).outer = tally.outer ∧
          (tally.takeAll tokens).afterOperand = true) ∧
        tally.outerLevel + Expr.depthOfAll values ≤ tally.deepest tokens
  | .links steps, tokens => ∀ tally : Tally, tally.afterOperand = true →
      tally.Settled (tally.takeAll tokens) .comparison ∧
        tally.outerLevel + tally.negations + Expr.depthOfAll (steps.map Prod.snd) ≤
          tally.deepest tokens
  | .elements values _, tokens => ∀ tally : Tally, tally.Ready .disjunction →
      (tally.takeAll tokens).outer = tally.outer ∧
        tally.level + Expr.depthOfAll values ≤ tally.deepest tokens

theorem Tally.takeAll_enclose {values : List Expr} {trailing : Bool}
    {tokens : List Token} (bracket : Bracket)
    (hreaches : (Phrase.elements values trailing).Reaches tokens) (tally : Tally) :
    tally.takeAll (bracket.enclose tokens) = tally.operand ∧
      tally.level + (Expr.depthOfAll values + 1) ≤
        tally.deepest (bracket.enclose tokens) := by
  have hinside := hreaches tally.enter (tally.ready_enter _)
  unfold Bracket.enclose
  constructor
  · rw [takeAll_cons, takeAll_append]
    exact leave_of_outer hinside.1
  · have hlevel := tally.level_enter
    have hle := tally.deepest_take_le (.symbol (.opening bracket))
      (tokens ++ [.symbol (.closing bracket)])
    have hdeep : tally.enter.deepest tokens ≤
        tally.enter.deepest (tokens ++ [.symbol (.closing bracket)]) := by
      rw [deepest_append]
      exact Nat.le_max_left _ _
    change tally.enter.deepest (tokens ++ [.symbol (.closing bracket)]) ≤ _ at hle
    omega

theorem Tally.takeAll_relation (relation : Relation) {tally : Tally}
    (hoperand : tally.afterOperand = true) :
    ∃ afterIs, tally.takeAll relation.tokens =
      { tally.interrupt with afterIs := afterIs } := by
  cases relation with
  | is => exact ⟨true, rfl⟩
  | isNot => exact ⟨false, rfl⟩
  | notIn =>
      refine ⟨false, ?_⟩
      simp only [Relation.tokens, takeAll_cons, takeAll_nil, take, hoperand, if_true]
      rfl
  | _ => exact ⟨false, rfl⟩

theorem Tally.take_operator {op : BinaryOperator} (hop : op ≠ .power) {tally : Tally}
    (hoperand : tally.afterOperand = true) :
    tally.take (.symbol op.symbol) = tally.interrupt := by
  cases op with
  | power => exact absurd rfl hop
  | add => exact if_pos hoperand
  | subtract => exact if_pos hoperand
  | _ => rfl

/-- An infix operator leaves negations in force and ends the run. -/
theorem Tally.ready_interrupt (tally : Tally) {level : Level} (afterIs : Bool)
    (hlevel : level.rank ≤ Level.comparison.rank) :
    Ready { tally.interrupt with afterIs := afterIs } level where
  afterOperand := rfl
  afterIs := fun hle => absurd (Nat.le_trans hle hlevel) (by decide)
  run := fun _ => rfl
  negations := fun hle => absurd (Nat.le_trans hle hlevel) (by decide)

theorem Phrase.Reaches.binary {op : BinaryOperator} {left right : Expr}
    {level tighter : Level} {tokens following : List Token} (hop : op ≠ .power)
    (hterm : Level.term.rank ≤ level.rank)
    (hcomparison : level.rank ≤ Level.comparison.rank)
    (htighter : tighter.rank ≤ Level.comparison.rank)
    (hleft : (Phrase.expr level left).Reaches tokens)
    (hright : (Phrase.expr tighter right).Reaches following) :
    (Phrase.expr level (.binary op left right)).Reaches
      (tokens ++ .symbol op.symbol :: following) := by
  intro tally hready
  obtain ⟨hsettled, hfirst⟩ := hleft tally hready
  have htake := Tally.take_operator hop hsettled.afterOperand
  obtain ⟨hafter, hsecond⟩ := hright _
    ((tally.takeAll tokens).ready_interrupt false htighter)
  have hnegations := hsettled.negations hcomparison
  have hsame : (tally.takeAll tokens).interrupt.level = tally.level := by
    have houter := Tally.outerLevel_of_outer hsettled.outer
    have hrun := hready.run hterm
    simp only [Tally.level, Tally.interrupt, Tally.outerLevel] at houter ⊢
    omega
  constructor
  · rw [Tally.takeAll_append, Tally.takeAll_cons, htake]
    constructor
    · exact hafter.outer.trans hsettled.outer
    · exact hafter.afterOperand
    · intro _
      exact (hafter.negations htighter).trans hnegations
    · intro hle
      exact absurd (Nat.le_trans hterm hle) (by decide)
  · have hle := (tally.takeAll tokens).deepest_take_le (.symbol op.symbol) following
    rw [htake] at hle
    change (tally.takeAll tokens).interrupt.level + _ ≤
      (tally.takeAll tokens).interrupt.deepest following at hsecond
    rw [Tally.deepest_append, Expr.depth, if_neg hop]
    omega

theorem Phrase.Reaches.power {base exponent : Expr} {tokens following : List Token}
    (hbase : (Phrase.expr .postfixed base).Reaches tokens)
    (hexponent : (Phrase.expr .factor exponent).Reaches following) :
    (Phrase.expr .factor (.binary .power base exponent)).Reaches
      (tokens ++ .symbol .power :: following) := by
  intro tally hready
  obtain ⟨hsettled, hfirst⟩ := hbase tally (hready.mono (by decide))
  have hrun := hsettled.run (by decide)
  have hnegations := hsettled.negations (by decide)
  have houter := Tally.outerLevel_of_outer hsettled.outer
  have hnext : ((tally.takeAll tokens).take (.symbol .power)).Ready .factor :=
    ⟨rfl, fun hle => absurd hle (by decide), fun hle => absurd hle (by decide),
      fun hle => absurd hle (by decide)⟩
  obtain ⟨hafter, hsecond⟩ := hexponent _ hnext
  constructor
  · rw [Tally.takeAll_append, Tally.takeAll_cons]
    constructor
    · exact hafter.outer.trans hsettled.outer
    · exact hafter.afterOperand
    · intro _
      exact (hafter.negations (by decide)).trans hnegations
    · intro hle
      exact absurd hle (by decide)
  · have hle := (tally.takeAll tokens).deepest_take_le (.symbol .power) following
    have hlevel : ((tally.takeAll tokens).take (.symbol .power)).level = tally.level + 1 := by
      simp only [Tally.level, Tally.take, Tally.outerLevel] at houter ⊢
      omega
    rw [Tally.deepest_append, Expr.depth, if_pos rfl]
    omega

theorem Phrase.Reaches.sign {op : PrefixOperator} {e : Expr} {tokens : List Token}
    (hop : op ≠ .not) (hreaches : (Phrase.expr .factor e).Reaches tokens) :
    (Phrase.expr .factor (.prefixed op e)).Reaches (op.token :: tokens) := by
  intro tally hready
  have htake : tally.take op.token = tally.prefixed := by
    have hoperand : ¬ tally.afterOperand = true := by
      rw [hready.afterOperand]
      exact Bool.false_ne_true
    cases op with
    | not => exact absurd rfl hop
    | invert => rfl
    | minus => exact if_neg hoperand
    | plus => exact if_neg hoperand
  have hnext : tally.prefixed.Ready .factor :=
    ⟨hready.afterOperand, fun _ => rfl, fun hle => absurd hle (by decide),
      fun hle => absurd hle (by decide)⟩
  obtain ⟨hafter, hdeep⟩ := hreaches _ hnext
  constructor
  · rw [Tally.takeAll_cons, htake]
    constructor
    · exact hafter.outer
    · exact hafter.afterOperand
    · exact hafter.negations
    · intro hle
      exact absurd hle (by decide)
  · have hle := tally.deepest_take_le op.token tokens
    have hlevel : tally.prefixed.level = tally.level + 1 := rfl
    rw [htake] at hle
    rw [Expr.depth]
    omega

theorem Phrase.Reaches.not {e : Expr} {tokens : List Token}
    (hreaches : (Phrase.expr .negation e).Reaches tokens) :
    (Phrase.expr .negation (.prefixed .not e)).Reaches (.keyword .not :: tokens) := by
  intro tally hready
  have hoperand := hready.afterOperand
  have hafterIs := hready.afterIs (by decide)
  have htake : tally.take (.keyword .not) =
      { tally with negations := tally.negations + 1 } := by
    simp only [Tally.take, hoperand, hafterIs, Bool.false_eq_true, if_false]
  have hnext : (tally.take (.keyword .not)).Ready .negation := by
    rw [htake]
    exact ⟨hoperand, fun _ => hafterIs, fun _ => hready.run (by decide),
      fun hle => absurd hle (by decide)⟩
  obtain ⟨hafter, hdeep⟩ := hreaches _ hnext
  constructor
  · rw [Tally.takeAll_cons]
    constructor
    · rw [hafter.outer, htake]
    · exact hafter.afterOperand
    · intro hle
      exact absurd hle (by decide)
    · intro hle
      exact absurd hle (by decide)
  · have hle := tally.deepest_take_le (.keyword .not) tokens
    have hlevel : (tally.take (.keyword .not)).level = tally.level + 1 := by
      rw [htake]
      simp only [Tally.level, Tally.outerLevel]
      omega
    rw [Expr.depth]
    omega

/-! ## Runs of operands -/

theorem Phrase.Reaches.follower {separator : Token} {level : Level} {value : Expr}
    {values : List Expr} {tokens following : List Token}
    (hvalue : (Phrase.expr level value).Reaches tokens)
    (hvalues : (Phrase.followers separator level values).Reaches following) :
    (Phrase.followers separator level (value :: values)).Reaches
      (separator :: (tokens ++ following)) := by
  intro hseparator tally hoperand
  obtain ⟨hsettled, hfirst⟩ := hvalue tally.separate (tally.ready_separate level)
  obtain ⟨hafter, hrest⟩ := hvalues hseparator _ hsettled.afterOperand
  have houter : ((tally.separate).takeAll tokens).outerLevel = tally.outerLevel :=
    Tally.outerLevel_of_outer hsettled.outer
  rw [Tally.takeAll_cons, Tally.takeAll_append, hseparator]
  refine ⟨⟨hafter.1.trans hsettled.outer, hafter.2⟩, ?_⟩
  have hle := tally.deepest_take_le separator (tokens ++ following)
  rw [hseparator, Tally.deepest_append] at hle
  rw [Tally.level_separate] at hfirst
  rw [Expr.depthOfAll]
  omega

theorem Phrase.Reaches.link (relation : Relation) {value : Expr}
    {steps : List (Relation × Expr)} {tokens following : List Token}
    (hvalue : (Phrase.expr .arithmetic value).Reaches tokens)
    (hsteps : (Phrase.links steps).Reaches following) :
    (Phrase.links ((relation, value) :: steps)).Reaches
      (relation.tokens ++ (tokens ++ following)) := by
  intro tally hoperand
  obtain ⟨afterIs, hrelation⟩ := Tally.takeAll_relation relation hoperand
  obtain ⟨hsettled, hfirst⟩ := hvalue _ (tally.ready_interrupt afterIs (by decide))
  obtain ⟨hafter, hrest⟩ := hsteps _ hsettled.afterOperand
  have houter := Tally.outerLevel_of_outer hsettled.outer
  have hnegations := hsettled.negations (by decide)
  rw [Tally.takeAll_append, Tally.takeAll_append, hrelation]
  constructor
  · constructor
    · exact hafter.outer.trans hsettled.outer
    · exact hafter.afterOperand
    · intro hle
      exact (hafter.negations hle).trans hnegations
    · intro hle
      exact absurd hle (by decide)
  · rw [Tally.deepest_append, hrelation, Tally.deepest_append, List.map_cons,
      Expr.depthOfAll]
    simp only [Tally.level, Tally.interrupt, Tally.outerLevel] at houter hnegations hfirst hrest ⊢
    omega

theorem Phrase.Reaches.junction {op : Junction} {first next : Expr} {others : List Expr}
    {tokens following : List Token}
    (hfirst : (Phrase.expr op.operandLevel first).Reaches tokens)
    (hothers : (Phrase.followers (.keyword op.keyword) op.operandLevel
      (next :: others)).Reaches following) :
    (Phrase.expr op.operandLevel.looser (.junction op (first :: next :: others))).Reaches
      (tokens ++ following) := by
  intro tally hready
  have hseparator : ∀ tally : Tally,
      tally.take (.keyword op.keyword) = tally.separate := by
    intro tally
    cases op <;> rfl
  have hlevel : tally.level = tally.outerLevel := by
    apply Tally.Ready.level_eq
    apply hready.mono
    cases op <;> decide
  obtain ⟨hsettled, hdeep⟩ := hfirst tally
    (hready.mono op.operandLevel.rank_le_rank_looser)
  obtain ⟨hafter, hrest⟩ := hothers hseparator _ hsettled.afterOperand
  have houter := Tally.outerLevel_of_outer hsettled.outer
  constructor
  · rw [Tally.takeAll_append]
    constructor
    · exact hafter.1.trans hsettled.outer
    · exact hafter.2
    · intro hle
      cases op <;> exact absurd hle (by decide)
    · intro hle
      cases op <;> exact absurd hle (by decide)
  · rw [Tally.deepest_append, Expr.depth, Expr.depthOfAll]
    omega

theorem Phrase.Reaches.compare {left : Expr} {steps : List (Relation × Expr)}
    {tokens following : List Token}
    (hleft : (Phrase.expr .arithmetic left).Reaches tokens)
    (hsteps : (Phrase.links steps).Reaches following) :
    (Phrase.expr .comparison
      (.compare left (steps.map Prod.fst) (steps.map Prod.snd))).Reaches
        (tokens ++ following) := by
  intro tally hready
  obtain ⟨hsettled, hdeep⟩ := hleft tally (hready.mono (by decide))
  obtain ⟨hafter, hrest⟩ := hsteps _ hsettled.afterOperand
  have houter := Tally.outerLevel_of_outer hsettled.outer
  have hnegations := hsettled.negations (by decide)
  have hrun := hready.run (by decide)
  constructor
  · rw [Tally.takeAll_append]
    constructor
    · exact hafter.outer.trans hsettled.outer
    · exact hafter.afterOperand
    · intro hle
      exact (hafter.negations hle).trans hnegations
    · intro hle
      exact absurd hle (by decide)
  · rw [Tally.deepest_append, Expr.depth]
    simp only [Tally.level] at hdeep ⊢
    omega

/-! ## Trailers and brackets -/

theorem Phrase.Reaches.trailer {value e : Expr} (depth : Nat)
    {tokens following : List Token}
    (hdepth : e.depth ≤ max value.depth depth)
    (hvalue : (Phrase.expr .postfixed value).Reaches tokens)
    (hfollowing : ∀ tally : Tally, tally.afterOperand = true →
      tally.takeAll following = tally.operand ∧
        tally.level + depth ≤ tally.deepest following) :
    (Phrase.expr .postfixed e).Reaches (tokens ++ following) := by
  intro tally hready
  obtain ⟨hsettled, hdeep⟩ := hvalue tally hready
  obtain ⟨hafter, hrest⟩ := hfollowing _ hsettled.afterOperand
  have houter := Tally.outerLevel_of_outer hsettled.outer
  have hnegations := hsettled.negations (by decide)
  have hrun := hsettled.run (by decide)
  constructor
  · rw [Tally.takeAll_append, hafter]
    exact ⟨hsettled.outer, rfl, fun _ => hnegations, fun _ => hrun⟩
  · rw [Tally.deepest_append]
    simp only [Tally.level] at hdeep hrest ⊢
    omega

theorem Phrase.Reaches.elements_single {e : Expr} {tokens : List Token}
    (hreaches : (Phrase.expr .disjunction e).Reaches tokens) :
    (Phrase.elements [e] false).Reaches tokens := by
  intro tally hready
  obtain ⟨hsettled, hdeep⟩ := hreaches tally hready
  refine ⟨hsettled.outer, ?_⟩
  rw [Expr.depthOfAll, Expr.depthOfAll]
  omega

theorem Phrase.Reaches.enclose {e : Expr} {values : List Expr} {trailing : Bool}
    {tokens : List Token} (bracket : Bracket)
    (hdepth : e.depth ≤ Expr.depthOfAll values + 1)
    (hreaches : (Phrase.elements values trailing).Reaches tokens) :
    (Phrase.expr .atom e).Reaches (bracket.enclose tokens) := by
  intro tally _
  obtain ⟨hafter, hdeep⟩ := tally.takeAll_enclose bracket hreaches
  constructor
  · rw [hafter]
    exact ⟨rfl, rfl, fun _ => rfl, fun _ => rfl⟩
  · omega

theorem Phrase.Reaches.leaf {e : Expr} {token : Token} (hdepth : e.depth = 0)
    (htake : ∀ tally : Tally, tally.take token = tally.operand) :
    (Phrase.expr .atom e).Reaches [token] := by
  intro tally _
  constructor
  · rw [Tally.takeAll_cons, htake]
    exact ⟨rfl, rfl, fun _ => rfl, fun _ => rfl⟩
  · rw [hdepth]
    exact tally.level_le_deepest [token]

theorem reaches_trailingComma (trailing : Bool) {tally : Tally} :
    (tally.takeAll (trailingComma trailing)).outer = tally.outer := by
  cases trailing <;> rfl

theorem Phrase.Reaches.someElements {first : Expr} {others : List Expr}
    {tokens following : List Token} (trailing : Bool)
    (hfirst : (Phrase.expr .disjunction first).Reaches tokens)
    (hothers : (Phrase.followers (.symbol .comma) .disjunction others).Reaches following) :
    (Phrase.elements (first :: others) trailing).Reaches
      (tokens ++ (following ++ trailingComma trailing)) := by
  intro tally hready
  obtain ⟨hsettled, hdeep⟩ := hfirst tally hready
  obtain ⟨hafter, hrest⟩ := hothers (fun _ => rfl) _ hsettled.afterOperand
  have houter := Tally.outerLevel_of_outer hsettled.outer
  have hlevel := (hready.mono (by decide)).level_eq
  rw [Tally.takeAll_append, Tally.takeAll_append]
  constructor
  · rw [reaches_trailingComma]
    exact hafter.1.trans hsettled.outer
  · rw [Tally.deepest_append, Tally.deepest_append, Expr.depthOfAll]
    omega

/-! ## All spellings -/

theorem Spelled.phrase_reaches {phrase : Phrase} {tokens : List Token}
    (hspelled : Spelled phrase tokens) : phrase.Reaches tokens := by
  induction hspelled with
  | @looser level _ _ _ ih =>
      intro tally hready
      obtain ⟨hsettled, hdeep⟩ := ih tally (hready.mono level.rank_le_rank_looser)
      exact ⟨hsettled.mono level.rank_le_rank_looser, hdeep⟩
  | junction op _ _ ihfirst ihothers => exact Phrase.Reaches.junction ihfirst ihothers
  | not _ ih => exact Phrase.Reaches.not ih
  | compare _ _ ihleft ihsteps => exact Phrase.Reaches.compare ihleft ihsteps
  | @sum op _ _ _ _ hsum _ _ ihleft ihright =>
      have hop : op ≠ .power := by
        rintro rfl
        exact hsum
      exact Phrase.Reaches.binary hop (by decide) (by decide) (by decide) ihleft ihright
  | @product op _ _ _ _ hproduct _ _ ihleft ihright =>
      have hop : op ≠ .power := by
        rintro rfl
        exact hproduct
      exact Phrase.Reaches.binary hop (by decide) (by decide) (by decide) ihleft ihright
  | sign hop _ ih => exact Phrase.Reaches.sign hop ih
  | power _ _ ihbase ihexponent => exact Phrase.Reaches.power ihbase ihexponent
  | @call function arguments _ _ _ _ _ ihfunction iharguments =>
      have hdepth := Expr.depthInside_le arguments
      refine Phrase.Reaches.trailer (Expr.depthOfAll arguments + 1) ?_ ihfunction ?_
      · rw [Expr.depth]
        omega
      · intro tally _
        exact tally.takeAll_enclose .round iharguments
  | @attributed value _ field _ ih =>
      refine Phrase.Reaches.trailer 0 ?_ ih ?_
      · rw [Expr.depth]
        omega
      · intro tally hoperand
        refine ⟨?_, tally.level_le_deepest _⟩
        rfl
  | @subscript value index _ _ _ _ ihvalue ihindex =>
      refine Phrase.Reaches.trailer (index.depth + 1) ?_ ihvalue ?_
      · exact Nat.le_of_eq (by rw [Expr.depth])
      · intro tally _
        have henclose := tally.takeAll_enclose .square
          (Phrase.Reaches.elements_single ihindex)
        rw [Expr.depthOfAll, Expr.depthOfAll, Nat.max_zero] at henclose
        exact henclose
  | name id => exact Phrase.Reaches.leaf rfl fun _ => rfl
  | constant value =>
      apply Phrase.Reaches.leaf rfl
      cases value <;> exact fun _ => rfl
  | group _ ih =>
      apply Phrase.Reaches.enclose .round _ (Phrase.Reaches.elements_single ih)
      rw [Expr.depthOfAll]
      omega
  | tuple _ _ ih => exact Phrase.Reaches.enclose .round (Expr.depthInside_le _) ih
  | list _ ih => exact Phrase.Reaches.enclose .square (Expr.depthInside_le _) ih
  | noFollower separator level =>
      intro _ tally hoperand
      refine ⟨⟨rfl, hoperand⟩, ?_⟩
      rw [Expr.depthOfAll, Tally.deepest, Tally.level]
      omega
  | follower _ _ ihvalue ihvalues => exact Phrase.Reaches.follower ihvalue ihvalues
  | noLink =>
      intro tally hoperand
      refine ⟨⟨rfl, hoperand, fun _ => rfl, fun _ => rfl⟩, ?_⟩
      rw [List.map_nil, Expr.depthOfAll, Tally.deepest, Tally.level]
      omega
  | link relation _ _ ihvalue ihsteps => exact Phrase.Reaches.link relation ihvalue ihsteps
  | noElement trailing =>
      intro tally hready
      exact ⟨reaches_trailingComma trailing, tally.level_le_deepest _⟩
  | someElements trailing _ _ ihfirst ihothers =>
      exact Phrase.Reaches.someElements trailing ihfirst ihothers

/-- The depth of an expression is counted over every spelling of it. -/
theorem Spelled.depth_le {e : Expr} {tokens : List Token}
    (hspelled : Spelled (.expr .disjunction e) tokens) :
    e.depth ≤ ({} : Tally).deepest tokens := by
  have hready : ({} : Tally).Ready .disjunction :=
    ⟨rfl, fun _ => rfl, fun _ => rfl, fun _ => rfl⟩
  have hreaches := (hspelled.phrase_reaches {} hready).2
  have hlevel : ({} : Tally).level = 0 := rfl
  rw [hlevel, Nat.zero_add] at hreaches
  exact hreaches

end RecordCondition
