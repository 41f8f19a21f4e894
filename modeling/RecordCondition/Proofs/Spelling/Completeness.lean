import RecordCondition.Proofs.Spelling.Ladder

/-!
# Every spelling is read

A spelling of an expression is read as that expression wherever it stands, as
long as nothing behind it carries it on.  The proof is by induction on the
spelling; the rungs of the ladder that repeat themselves are entered with the
value that the part of the spelling in front of them is read as.
-/

namespace RecordCondition

variable (inner : Reader Expr)

def Level.reader : Level → Reader Expr
  | .atom => RecordCondition.atom inner
  | .postfixed => RecordCondition.postfixed inner
  | .factor => RecordCondition.factor inner
  | .term => RecordCondition.term inner
  | .arithmetic => RecordCondition.arithmetic inner
  | .comparison => RecordCondition.comparison inner
  | .negation => RecordCondition.negation inner
  | .conjunction => RecordCondition.conjunction inner
  | .disjunction => RecordCondition.disjunction inner

/-- What a rung makes of a value that it has read and of the tokens behind it. -/
def Level.resume (level : Level) (value : Expr) (tokens : List Token) :
    Expr × List Token :=
  match level with
  | .postfixed => trail inner value tokens
  | .term => extend productOperator (RecordCondition.factor inner) value tokens
  | .arithmetic => extend sumOperator (RecordCondition.term inner) value tokens
  | _ => (value, tokens)

/-- What must not be carried on for a rung to be left or resumed. -/
def Level.guard : Level → Level
  | .postfixed => .atom
  | .term => .factor
  | .arithmetic => .term
  | level => level

theorem Level.rank_guard_le (level : Level) : level.guard.rank ≤ level.rank := by
  cases level <;> decide

theorem Level.resume_of_stops {level : Level} {tokens : List Token}
    (hstops : Stops level tokens) (value : Expr) :
    level.resume inner value tokens = (value, tokens) := by
  cases level with
  | postfixed => exact trail_of_stops inner hstops value
  | term => exact extend_of_none (productOperator_eq_none hstops) value
  | arithmetic => exact extend_of_none (sumOperator_eq_none hstops) value
  | _ => rfl

def Level.Reads (level : Level) (e : Expr) (tokens : List Token) : Prop :=
  ∀ rest, Stops level.guard rest →
    level.reader inner (tokens ++ rest) = some (level.resume inner e rest)

variable {inner}

theorem Level.Reads.stopped {level : Level} {e : Expr} {tokens rest : List Token}
    (hreads : level.Reads inner e tokens) (hstops : Stops level rest) :
    level.reader inner (tokens ++ rest) = some (e, rest) := by
  rw [hreads rest (hstops.mono level.rank_guard_le), Level.resume_of_stops inner hstops]

/-! ## One rung above another -/

theorem comparison_of_steps {tokens middle rest : List Token} {left : Expr}
    {steps : List (Relation × Expr)}
    (hleft : arithmetic inner tokens = some (left, middle))
    (hsteps : Reader.many (Reader.step relation (arithmetic inner)) middle =
      (steps, rest)) :
    comparison inner tokens = some (.chain left steps, rest) := by
  unfold comparison
  rw [hleft]
  simp only [Option.bind_eq_bind, Option.bind_some, hsteps]

theorem joined_of_steps {op : Junction} {operand : Reader Expr}
    {tokens middle rest : List Token} {first : Expr} {steps : List (Unit × Expr)}
    (hfirst : operand tokens = some (first, middle))
    (hsteps : Reader.many (Reader.step (keyword op.keyword) operand) middle =
      (steps, rest)) :
    joined op op.keyword operand tokens =
      some (.join op first (steps.map Prod.snd), rest) := by
  unfold joined
  rw [hfirst]
  simp only [Option.bind_eq_bind, Option.bind_some, hsteps]

theorem many_relation_of_stops {tokens : List Token} (hstops : Stops .comparison tokens) :
    Reader.many (Reader.step relation (arithmetic inner)) tokens = ([], tokens) :=
  Reader.many_of_none (Reader.step_eq_none (relation_eq_none hstops) _)

theorem keyword_eq_none_of_stops (op : Junction) {tokens : List Token}
    (hstops : Stops op.operandLevel.looser tokens) :
    keyword op.keyword tokens = none := by
  apply keyword_eq_none
  intro rest
  cases op with
  | and => exact hstops.ne rfl (by decide) rest
  | or => exact hstops.ne rfl (by decide) rest

theorem Level.Reads.looser {level : Level} {e : Expr} {tokens : List Token}
    (hbegins : Begins level tokens) (hreads : level.Reads inner e tokens) :
    level.looser.Reads inner e tokens := by
  intro rest hstops
  have hread : Stops level rest → level.reader inner (tokens ++ rest) = some (e, rest) :=
    hreads.stopped
  cases level with
  | atom => exact postfixed_of_atom inner (hread (Stops.atom rest))
  | postfixed =>
      have hbase := hread (hstops.mono (by decide))
      exact factor_of_base inner ((hbegins.append rest).signs_eq (by decide)) hbase
        (fun after => hstops.ne rfl (by decide) after)
  | factor => exact leftChain_of_operand (hread hstops)
  | term => exact leftChain_of_operand (hread hstops)
  | arithmetic =>
      exact comparison_of_steps (hread (hstops.mono (by decide)))
        (many_relation_of_stops hstops)
  | comparison =>
      have hnot := (hbegins.append rest).ne_not (by decide)
      change RecordCondition.negation inner (tokens ++ rest) = some (e, rest)
      rw [negation_of_ne_not inner hnot]
      exact hread (hstops.mono (by decide))
  | negation =>
      have hnone := keyword_eq_none_of_stops .and hstops
      exact joined_of_steps (hread (hstops.mono (by decide)))
        (Reader.many_of_none (Reader.step_eq_none hnone _))
  | conjunction =>
      have hnone := keyword_eq_none_of_stops .or hstops
      exact joined_of_steps (hread (hstops.mono (by decide)))
        (Reader.many_of_none (Reader.step_eq_none hnone _))
  | disjunction => exact hread hstops

/-! ## Repetitions that are spelled out -/

theorem Spelled.followers_front {separator : Token} {level : Level} {values : List Expr}
    {tokens : List Token} (hspelled : Spelled (.followers separator level values) tokens) :
    tokens = [] ∨ ∃ tail, tokens = separator :: tail := by
  cases hspelled with
  | noFollower => exact Or.inl rfl
  | follower => exact Or.inr ⟨_, rfl⟩

theorem Stops.followers {separator : Token} {level : Level} {values : List Expr}
    {tokens rest : List Token}
    (hspelled : Spelled (.followers separator level values) tokens)
    (hseparator : ∀ tail, Stops level (separator :: tail))
    (hstops : Stops level rest) : Stops level (tokens ++ rest) := by
  rcases hspelled.followers_front with rfl | ⟨tail, rfl⟩
  · exact hstops
  · exact hseparator (tail ++ rest)

theorem Relation.tokens_front (relation : Relation) :
    ∃ token tail, relation.tokens = token :: tail ∧
      token.carriesOn = some .comparison := by
  cases relation <;> exact ⟨_, _, rfl, rfl⟩

theorem Stops.links {steps : List (Relation × Expr)} {tokens rest : List Token}
    (hspelled : Spelled (.links steps) tokens) (hstops : Stops .comparison rest) :
    Stops .arithmetic (tokens ++ rest) := by
  cases hspelled with
  | noLink => exact hstops.mono (by decide)
  | link relation _ _ =>
      obtain ⟨token, tail, hfront, hcarries⟩ := relation.tokens_front
      rw [hfront]
      exact Stops.of_carriesOn hcarries (by decide) _

theorem length_lt_cons_append (token : Token) (taken rest : List Token) :
    rest.length < (token :: (taken ++ rest)).length := by
  rw [List.length_cons, List.length_append]
  omega

theorem many_step_of_step {ο : Type} {operator : Reader ο} {operand : Reader Expr}
    {tokens middle rest : List Token} {op : ο} {value : Expr}
    (hoperator : operator tokens = some (op, middle))
    (hoperand : operand middle = some (value, rest))
    (hshorter : rest.length < tokens.length) :
    Reader.many (Reader.step operator operand) tokens =
      ((op, value) :: (Reader.many (Reader.step operator operand) rest).1,
        (Reader.many (Reader.step operator operand) rest).2) :=
  Reader.many_of_some (Reader.step_eq_some_iff.mpr ⟨middle, hoperator, hoperand⟩) hshorter

/-- Operands behind separators are read, and the repetition then ends. -/
def ReadsFollowers (separator : Token) (operand : Reader Expr) (level : Level)
    (values : List Expr) (tokens : List Token) : Prop :=
  ∀ (operator : Reader Unit) (rest : List Token),
    (∀ after, operator (separator :: after) = some ((), after)) →
    (∀ tail, Stops level (separator :: tail)) →
    Stops level rest → Reader.step operator operand rest = none →
    Reader.many (Reader.step operator operand) (tokens ++ rest) =
      (values.map fun value => ((), value), rest)

def ReadsLinks (operand : Reader Expr) (steps : List (Relation × Expr))
    (tokens : List Token) : Prop :=
  ∀ rest, Stops .comparison rest →
    Reader.many (Reader.step relation operand) (tokens ++ rest) = (steps, rest)

theorem ReadsFollowers.cons {separator : Token} {level : Level} {value : Expr}
    {values : List Expr} {tokens following : List Token}
    (hfollowing : Spelled (.followers separator level values) following)
    (hvalue : level.Reads inner value tokens)
    (hvalues : ReadsFollowers separator (level.reader inner) level values following) :
    ReadsFollowers separator (level.reader inner) level (value :: values)
      (separator :: (tokens ++ following)) := by
  intro operator rest hoperator hseparator hstops hend
  have hread : level.reader inner (tokens ++ (following ++ rest)) =
      some (value, following ++ rest) :=
    hvalue.stopped (hstops.followers hfollowing hseparator)
  have hshorter := length_lt_cons_append separator tokens (following ++ rest)
  rw [List.cons_append, List.append_assoc, many_step_of_step (hoperator _) hread hshorter,
    hvalues operator rest hoperator hseparator hstops hend]
  rfl

theorem ReadsLinks.cons {relation : Relation} {value : Expr}
    {steps : List (Relation × Expr)} {tokens following : List Token}
    (hfollowing : Spelled (.links steps) following)
    (hbegins : Begins .arithmetic tokens)
    (hvalue : Level.arithmetic.Reads inner value tokens)
    (hsteps : ReadsLinks (arithmetic inner) steps following) :
    ReadsLinks (arithmetic inner) ((relation, value) :: steps)
      (relation.tokens ++ (tokens ++ following)) := by
  intro rest hstops
  have hread : arithmetic inner (tokens ++ (following ++ rest)) =
      some (value, following ++ rest) :=
    hvalue.stopped (hstops.links hfollowing)
  have hrelation := relation_tokens relation
    ((hbegins.append (following ++ rest)).ne_not (by decide))
  have hshorter : (following ++ rest).length <
      (relation.tokens ++ (tokens ++ (following ++ rest))).length := by
    obtain ⟨token, tail, hfront, -⟩ := relation.tokens_front
    rw [hfront]
    simp only [List.length_append, List.length_cons]
    omega
  rw [List.append_assoc, List.append_assoc,
    many_step_of_step hrelation hread hshorter, hsteps rest hstops]

/-! ## Operators -/

theorem Level.Reads.junction {op : Junction} {first next : Expr} {others : List Expr}
    {tokens following : List Token}
    (hspelled : Spelled
      (.followers (.keyword op.keyword) op.operandLevel (next :: others)) following)
    (hfirst : op.operandLevel.Reads inner first tokens)
    (hothers : ReadsFollowers (.keyword op.keyword) (op.operandLevel.reader inner)
      op.operandLevel (next :: others) following) :
    op.operandLevel.looser.Reads inner (.junction op (first :: next :: others))
      (tokens ++ following) := by
  intro rest hstops
  have hseparator : ∀ tail, Stops op.operandLevel (.keyword op.keyword :: tail) := by
    intro tail
    cases op <;> exact Stops.of_carriesOn rfl (by decide) tail
  have hlooser : Stops op.operandLevel.looser rest := by
    cases op <;> exact hstops
  have hrest : Stops op.operandLevel rest :=
    hlooser.mono op.operandLevel.rank_le_rank_looser
  have hread : op.operandLevel.reader inner (tokens ++ (following ++ rest)) =
      some (first, following ++ rest) :=
    hfirst.stopped (hrest.followers hspelled hseparator)
  have hmany := hothers (keyword op.keyword) rest
    (fun after => keyword_eq_some_iff.mpr rfl) hseparator hrest
    (Reader.step_eq_none (keyword_eq_none_of_stops op hlooser) _)
  have hjoined := joined_of_steps hread hmany
  simp only [List.map_map, Function.comp_def, List.map_id'] at hjoined
  rw [List.append_assoc]
  cases op with
  | and => exact hjoined
  | or => exact hjoined

theorem Level.Reads.not {e : Expr} {tokens : List Token}
    (hreads : Level.negation.Reads inner e tokens) :
    Level.negation.Reads inner (.prefixed .not e) (.keyword .not :: tokens) := by
  intro rest hstops
  have hread : RecordCondition.negation inner (tokens ++ rest) = some (e, rest) :=
    hreads rest hstops
  change RecordCondition.negation inner (.keyword .not :: (tokens ++ rest)) = _
  rw [negation_not, hread]
  rfl

theorem Level.Reads.compare {left : Expr} {step : Relation × Expr}
    {steps : List (Relation × Expr)} {tokens following : List Token}
    (hspelled : Spelled (.links (step :: steps)) following)
    (hleft : Level.arithmetic.Reads inner left tokens)
    (hsteps : ReadsLinks (RecordCondition.arithmetic inner) (step :: steps) following) :
    Level.comparison.Reads inner
      (.compare left ((step :: steps).map Prod.fst) ((step :: steps).map Prod.snd))
      (tokens ++ following) := by
  intro rest hstops
  have hread : RecordCondition.arithmetic inner (tokens ++ (following ++ rest)) =
      some (left, following ++ rest) :=
    hleft.stopped (hstops.links hspelled)
  rw [List.append_assoc]
  exact comparison_of_steps hread (hsteps rest hstops)

theorem Level.Reads.sum {op : BinaryOperator} {left right : Expr}
    {tokens following : List Token} (hsum : op.IsSum)
    (hleft : Level.arithmetic.Reads inner left tokens)
    (hright : Level.term.Reads inner right following) :
    Level.arithmetic.Reads inner (.binary op left right)
      (tokens ++ .symbol op.symbol :: following) := by
  intro rest hstops
  have hcarries := BinaryOperator.carriesOn_of_isSum hsum
  have hread := hleft (.symbol op.symbol :: (following ++ rest))
    (Stops.of_carriesOn hcarries (by decide) _)
  have hnext : RecordCondition.term inner (following ++ rest) = some (right, rest) :=
    hright.stopped hstops
  rw [List.append_assoc, List.cons_append, hread]
  simp only [Level.resume]
  rw [extend_of_step (sumOperator_symbol hsum _) hnext (length_lt_cons_append _ _ _)]

theorem Level.Reads.product {op : BinaryOperator} {left right : Expr}
    {tokens following : List Token} (hproduct : op.IsProduct)
    (hleft : Level.term.Reads inner left tokens)
    (hright : Level.factor.Reads inner right following) :
    Level.term.Reads inner (.binary op left right)
      (tokens ++ .symbol op.symbol :: following) := by
  intro rest hstops
  have hcarries := BinaryOperator.carriesOn_of_isProduct hproduct
  have hread := hleft (.symbol op.symbol :: (following ++ rest))
    (Stops.of_carriesOn hcarries (by decide) _)
  have hnext : RecordCondition.factor inner (following ++ rest) = some (right, rest) :=
    hright.stopped hstops
  rw [List.append_assoc, List.cons_append, hread]
  simp only [Level.resume]
  rw [extend_of_step (productOperator_symbol hproduct _) hnext (length_lt_cons_append _ _ _)]

theorem Level.Reads.sign {op : PrefixOperator} {e : Expr} {tokens : List Token}
    (hop : op ≠ .not) (hreads : Level.factor.Reads inner e tokens) :
    Level.factor.Reads inner (.prefixed op e) (op.token :: tokens) := by
  intro rest hstops
  have hread : RecordCondition.factor inner (tokens ++ rest) = some (e, rest) :=
    hreads rest hstops
  have hsign := Token.prefixSign_eq_some_iff.mpr ⟨hop, rfl⟩
  change RecordCondition.factor inner (op.token :: (tokens ++ rest)) = _
  rw [factor_sign inner hsign, hread]
  rfl

theorem Level.Reads.power {base exponent : Expr} {tokens following : List Token}
    (hinner : inner.Takes .disjunction)
    (hbegins : Begins .postfixed tokens)
    (hbase : Level.postfixed.Reads inner base tokens)
    (hexponent : Level.factor.Reads inner exponent following) :
    Level.factor.Reads inner (.binary .power base exponent)
      (tokens ++ .symbol .power :: following) := by
  intro rest hstops
  have hread : RecordCondition.postfixed inner
      (tokens ++ .symbol .power :: (following ++ rest)) =
        some (base, .symbol .power :: (following ++ rest)) :=
    hbase.stopped (Stops.of_carriesOn rfl (by decide) _)
  have hnext : RecordCondition.factor inner (following ++ rest) = some (exponent, rest) :=
    hexponent rest hstops
  change RecordCondition.factor inner ((tokens ++ .symbol .power :: following) ++ rest) = _
  rw [List.append_assoc, List.cons_append,
    factor_of_power inner ((hbegins.append _).signs_eq (by decide)) hread
      (fun _ _ hsigned => signed_length_le hinner hsigned), hnext]
  rfl

theorem Level.Reads.trailer {value : Expr} {tokens following : List Token}
    (found : Trailer) (hvalue : Level.postfixed.Reads inner value tokens)
    (hnonempty : following ≠ [])
    (htrailer : ∀ rest, RecordCondition.trailer inner (following ++ rest) =
      some (found, rest)) :
    Level.postfixed.Reads inner (found.apply value) (tokens ++ following) := by
  intro rest _
  have hread := hvalue (following ++ rest) (Stops.atom _)
  have hpositive := List.length_pos_iff.mpr hnonempty
  rw [List.append_assoc, hread]
  simp only [Level.resume]
  rw [trail_of_trailer inner (htrailer rest) (by simp only [List.length_append]; omega)]

/-! ## Brackets -/

theorem expression_eq_none {token : Token} (hlead : token.leads = none) (depth : Nat)
    (rest : List Token) : expression depth (token :: rest) = none := by
  cases hread : expression depth (token :: rest) with
  | none => rfl
  | some result =>
      obtain ⟨e, after⟩ := result
      obtain ⟨taken, htokens, hspelled⟩ := expression_takes depth _ e after hread
      have hbegins := hspelled.begins.append after
      rw [← htokens] at hbegins
      exact absurd hbegins (not_begins_of_leads_eq_none hlead _ rest)

/-- The tokens between two brackets are read up to the closing one. -/
def ReadsElements (depth : Nat) (values : List Expr) (trailing : Bool)
    (tokens : List Token) : Prop :=
  ∀ bracket rest,
    elements (expression (depth + 1)) (tokens ++ .symbol (.closing bracket) :: rest) =
      ((values, trailing), .symbol (.closing bracket) :: rest)

theorem ReadsElements.empty (depth : Nat) (trailing : Bool) :
    ReadsElements depth [] trailing (trailingComma trailing) := by
  intro bracket rest
  have hnone : ∀ token tail, token.leads = none →
      expression (depth + 1) (token :: tail) = none := by
    intro token tail hlead
    exact expression_eq_none hlead (depth + 1) tail
  unfold elements
  cases trailing with
  | true =>
      simp only [trailingComma, List.singleton_append]
      rw [hnone (.symbol .comma) _ rfl]
      rfl
  | false =>
      simp only [trailingComma, List.nil_append]
      rw [hnone (.symbol (.closing bracket)) _ rfl]
      rfl

theorem ReadsElements.cons {depth : Nat} {first : Expr} {others : List Expr}
    {tokens following : List Token} (trailing : Bool)
    (hspelled : Spelled (.followers (.symbol .comma) .disjunction others) following)
    (hfirst : Level.disjunction.Reads (expression depth) first tokens)
    (hothers : ReadsFollowers (.symbol .comma)
      (Level.disjunction.reader (expression depth)) .disjunction others following) :
    ReadsElements depth (first :: others) trailing
      (tokens ++ (following ++ trailingComma trailing)) := by
  intro bracket rest
  have hclosing : Stops .disjunction
      (trailingComma trailing ++ .symbol (.closing bracket) :: rest) := by
    cases trailing <;> exact Stops.of_carriesOn_eq_none rfl _ _
  have hcomma : ∀ tail, Stops .disjunction (.symbol .comma :: tail) := by
    intro tail
    exact Stops.of_carriesOn_eq_none rfl _ tail
  have hend : Reader.step (symbol .comma) (expression (depth + 1))
      (trailingComma trailing ++ .symbol (.closing bracket) :: rest) = none := by
    have hnone : expression (depth + 1) (.symbol (.closing bracket) :: rest) = none :=
      expression_eq_none rfl (depth + 1) rest
    cases trailing with
    | true =>
        unfold Reader.step
        simp only [trailingComma, List.singleton_append]
        rw [symbol_eq_some_iff.mpr rfl]
        simp only [Option.bind_eq_bind, Option.bind_some, hnone, Option.bind_none]
    | false => exact Reader.step_eq_none rfl _
  have hread : expression (depth + 1)
      (tokens ++ (following ++
        (trailingComma trailing ++ .symbol (.closing bracket) :: rest))) =
      some (first, following ++
        (trailingComma trailing ++ .symbol (.closing bracket) :: rest)) :=
    hfirst.stopped (hclosing.followers hspelled hcomma)
  have hmany := hothers (symbol .comma) _ (fun after => symbol_eq_some_iff.mpr rfl)
    hcomma hclosing hend
  change Reader.many (Reader.step (symbol .comma) (expression (depth + 1))) _ = _ at hmany
  unfold elements
  simp only [List.append_assoc, hread, hmany]
  simp only [List.map_map, Function.comp_def, List.map_id']
  cases trailing <;> rfl

/-! ## All spellings -/

def Phrase.Reads (depth : Nat) : Phrase → List Token → Prop
  | .expr level e, tokens => level.Reads (expression depth) e tokens
  | .followers separator level values, tokens =>
      ReadsFollowers separator (level.reader (expression depth)) level values tokens
  | .links steps, tokens => ReadsLinks (arithmetic (expression depth)) steps tokens
  | .elements values trailing, tokens => ReadsElements depth values trailing tokens

theorem Bracket.exists_inner_depth {bracket : Bracket} {contents : List Token}
    {depth : Nat} (hdepth : (bracket.enclose contents).length ≤ depth) :
    ∃ level, depth = level + 1 ∧ contents.length ≤ level := by
  unfold Bracket.enclose at hdepth
  simp only [List.length_cons, List.length_append, List.length_nil] at hdepth
  exact ⟨depth - 1, by omega, by omega⟩

theorem Spelled.phrase_reads {phrase : Phrase} {tokens : List Token}
    (hspelled : Spelled phrase tokens) (depth : Nat) (hdepth : tokens.length ≤ depth) :
    phrase.Reads depth tokens := by
  induction hspelled generalizing depth with
  | looser hspelled ih => exact Level.Reads.looser hspelled.begins (ih depth hdepth)
  | junction op _ hfollowing ihfirst ihothers =>
      rw [List.length_append] at hdepth
      exact Level.Reads.junction hfollowing (ihfirst depth (by omega))
        (ihothers depth (by omega))
  | not _ ih =>
      rw [List.length_cons] at hdepth
      exact Level.Reads.not (ih depth (by omega))
  | compare _ hfollowing ihleft ihsteps =>
      rw [List.length_append] at hdepth
      exact Level.Reads.compare hfollowing (ihleft depth (by omega))
        (ihsteps depth (by omega))
  | sum hsum _ _ ihleft ihright =>
      rw [List.length_append, List.length_cons] at hdepth
      exact Level.Reads.sum hsum (ihleft depth (by omega)) (ihright depth (by omega))
  | product hproduct _ _ ihleft ihright =>
      rw [List.length_append, List.length_cons] at hdepth
      exact Level.Reads.product hproduct (ihleft depth (by omega))
        (ihright depth (by omega))
  | sign hop _ ih =>
      rw [List.length_cons] at hdepth
      exact Level.Reads.sign hop (ih depth (by omega))
  | power hbase _ ihbase ihexponent =>
      rw [List.length_append, List.length_cons] at hdepth
      exact Level.Reads.power (expression_takes depth) hbase.begins
        (ihbase depth (by omega)) (ihexponent depth (by omega))
  | call _ _ ihfunction iharguments =>
      rw [List.length_append] at hdepth
      obtain ⟨level, rfl, hlevel⟩ := Bracket.exists_inner_depth
        (Nat.le_trans (Nat.le_add_left _ _) hdepth)
      apply Level.Reads.trailer (.call _) (ihfunction (level + 1) (by omega))
      · simp [Bracket.enclose]
      · intro rest
        exact trailer_call _ (iharguments level hlevel .round rest)
  | attributed field _ ih =>
      rw [List.length_append] at hdepth
      apply Level.Reads.trailer (.attribute field) (ih depth (by omega))
      · simp
      · intro rest
        rfl
  | subscript _ _ ihvalue ihindex =>
      rw [List.length_append] at hdepth
      obtain ⟨level, rfl, hlevel⟩ := Bracket.exists_inner_depth
        (Nat.le_trans (Nat.le_add_left _ _) hdepth)
      apply Level.Reads.trailer (.subscript _) (ihvalue (level + 1) (by omega))
      · simp [Bracket.enclose]
      · intro rest
        apply trailer_subscript
        exact (ihindex level hlevel).stopped (Stops.of_carriesOn_eq_none rfl _ _)
  | name id =>
      intro rest _
      rfl
  | constant value =>
      intro rest _
      cases value <;> rfl
  | group hspelled ih =>
      obtain ⟨level, rfl, hlevel⟩ := Bracket.exists_inner_depth hdepth
      intro rest _
      have helements := ReadsElements.cons false (.noFollower _ _) (ih level hlevel)
        (by
          intro operator rest _ _ _ hend
          exact Reader.many_of_none hend)
      rw [trailingComma, List.append_nil, List.append_nil] at helements
      exact atom_round _ (helements .round rest)
  | tuple htuple _ ih =>
      obtain ⟨level, rfl, hlevel⟩ := Bracket.exists_inner_depth hdepth
      intro rest _
      have hread := atom_round _ (ih level hlevel .round rest)
      rw [Expr.ofRound_eq_tuple htuple] at hread
      exact hread
  | list _ ih =>
      obtain ⟨level, rfl, hlevel⟩ := Bracket.exists_inner_depth hdepth
      intro rest _
      exact atom_square _ (ih level hlevel .square rest)
  | noFollower separator level =>
      intro operator rest _ _ _ hend
      exact Reader.many_of_none hend
  | follower _ hfollowing ihvalue ihvalues =>
      rw [List.length_cons, List.length_append] at hdepth
      exact ReadsFollowers.cons hfollowing (ihvalue depth (by omega))
        (ihvalues depth (by omega))
  | noLink =>
      intro rest hstops
      exact many_relation_of_stops hstops
  | link relation hvalue hfollowing ihvalue ihsteps =>
      rw [List.length_append, List.length_append] at hdepth
      exact ReadsLinks.cons hfollowing hvalue.begins (ihvalue depth (by omega))
        (ihsteps depth (by omega))
  | noElement trailing => exact ReadsElements.empty depth trailing
  | someElements trailing _ hfollowing ihfirst ihothers =>
      rw [List.length_append, List.length_append] at hdepth
      exact ReadsElements.cons trailing hfollowing (ihfirst depth (by omega))
        (ihothers depth (by omega))

/-- Tokens are read as an expression exactly when they spell it. -/
theorem readExpression_eq_some_iff {tokens : List Token} {e : Expr} :
    readExpression tokens = some (e, []) ↔ Spelled (.expr .disjunction e) tokens := by
  constructor
  · intro hread
    obtain ⟨taken, htokens, hspelled⟩ := expression_takes _ tokens e [] hread
    rw [List.append_nil] at htokens
    rw [htokens]
    exact hspelled
  · intro hspelled
    have hread := (hspelled.phrase_reads tokens.length (Nat.le_refl _) :
      Level.disjunction.Reads _ _ _).stopped (Stops.nil _)
    rw [List.append_nil] at hread
    exact hread

end RecordCondition
