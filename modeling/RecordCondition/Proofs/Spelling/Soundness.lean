import RecordCondition.Proofs.Spelling.Readers

/-!
# What is read is spelled

Every reader of the ladder takes a spelling of what it returns, at its own level
of precedence.  The ladder is climbed once, for any reader for the expressions
in brackets that does the same.
-/

namespace RecordCondition

/-- A reader takes nothing but spellings of a level. -/
def Reader.Takes (reader : Reader Expr) (level : Level) : Prop :=
  ∀ tokens e rest, reader tokens = some (e, rest) →
    ∃ taken, tokens = taken ++ rest ∧ Spelled (.expr level e) taken

theorem Reader.Takes.length_le {reader : Reader Expr} {level : Level}
    (htakes : reader.Takes level) {tokens rest : List Token} {e : Expr}
    (hread : reader tokens = some (e, rest)) : rest.length ≤ tokens.length := by
  obtain ⟨taken, rfl, -⟩ := htakes tokens e rest hread
  rw [List.length_append]
  omega

/-! ## Repetitions -/

theorem Reader.many_takes {α : Type} {item : Reader α}
    {P : List α → List Token → Prop} (hnone : P [] [])
    (hitem : ∀ tokens first rest, item tokens = some (first, rest) →
      ∃ taken, tokens = taken ++ rest ∧
        ∀ values following, P values following →
          P (first :: values) (taken ++ following))
    (tokens : List Token) :
    ∃ taken, tokens = taken ++ (Reader.many item tokens).2 ∧
      P (Reader.many item tokens).1 taken := by
  induction tokens using Reader.many.induct item with
  | case1 tokens hread =>
      rw [Reader.many_of_none hread]
      exact ⟨[], rfl, hnone⟩
  | case2 tokens first rest hread hshorter ih =>
      obtain ⟨taken, htokens, hextends⟩ := hitem tokens first rest hread
      obtain ⟨following, hrest, hfollowing⟩ := ih
      rw [Reader.many_of_some hread hshorter]
      refine ⟨taken ++ following, ?_, hextends _ following hfollowing⟩
      rw [List.append_assoc, ← hrest]
      exact htokens
  | case3 tokens first rest hread hlonger =>
      rw [Reader.many, hread]
      simp only [hlonger, if_false]
      exact ⟨[], rfl, hnone⟩

theorem Reader.Takes.followers {operator : Reader Unit} {operand : Reader Expr}
    {separator : Token} {level : Level}
    (hoperator : ∀ tokens rest, operator tokens = some ((), rest) →
      tokens = separator :: rest)
    (htakes : operand.Takes level) (tokens : List Token) :
    ∃ taken,
      tokens = taken ++ (Reader.many (Reader.step operator operand) tokens).2 ∧
        Spelled
          (.followers separator level
            ((Reader.many (Reader.step operator operand) tokens).1.map Prod.snd))
          taken := by
  apply Reader.many_takes (P := fun steps taken =>
    Spelled (.followers separator level (steps.map Prod.snd)) taken)
  · exact .noFollower separator level
  · rintro tokens ⟨⟨⟩, value⟩ rest hread
    obtain ⟨middle, hop, hvalue⟩ := Reader.step_eq_some_iff.mp hread
    obtain ⟨taken, hmiddle, hspelled⟩ := htakes middle value rest hvalue
    refine ⟨separator :: taken, ?_, ?_⟩
    · rw [hoperator tokens middle hop, hmiddle, List.cons_append]
    · intro steps following hfollowing
      exact .follower hspelled hfollowing

theorem Reader.Takes.links {operand : Reader Expr}
    (htakes : operand.Takes .arithmetic) (tokens : List Token) :
    ∃ taken,
      tokens = taken ++ (Reader.many (Reader.step relation operand) tokens).2 ∧
        Spelled (.links (Reader.many (Reader.step relation operand) tokens).1) taken := by
  apply Reader.many_takes (P := fun steps taken => Spelled (.links steps) taken)
  · exact .noLink
  · rintro tokens ⟨found, value⟩ rest hread
    obtain ⟨middle, hop, hvalue⟩ := Reader.step_eq_some_iff.mp hread
    obtain ⟨taken, hmiddle, hspelled⟩ := htakes middle value rest hvalue
    refine ⟨found.tokens ++ taken, ?_, ?_⟩
    · rw [relation_eq_some hop, hmiddle, List.append_assoc]
    · intro steps following hfollowing
      rw [List.append_assoc]
      exact .link found hspelled hfollowing

/-- Steps of a chain, spelled after whatever spells the chain up to them. -/
def SpelledAfter (level : Level) (steps : List (BinaryOperator × Expr))
    (taken : List Token) : Prop :=
  ∀ left before, Spelled (.expr level left) before →
    Spelled
      (.expr level (steps.foldl (fun left step => .binary step.1 left step.2) left))
      (before ++ taken)

theorem Reader.Takes.leftChain {operator : Reader BinaryOperator}
    {operand : Reader Expr} {level : Level} {joins : BinaryOperator → Prop}
    (hoperator : ∀ tokens op rest, operator tokens = some (op, rest) →
      joins op ∧ tokens = .symbol op.symbol :: rest)
    (hjoin : ∀ op left right before following, joins op →
      Spelled (.expr level.looser left) before → Spelled (.expr level right) following →
      Spelled (.expr level.looser (.binary op left right))
        (before ++ .symbol op.symbol :: following))
    (htakes : operand.Takes level) :
    (leftChain operator operand).Takes level.looser := by
  intro tokens e rest hread
  unfold RecordCondition.leftChain at hread
  simp only [Option.bind_eq_bind, Option.bind_eq_some_iff, Prod.exists,
    Option.some.injEq, Prod.mk.injEq] at hread
  obtain ⟨first, middle, hfirst, rfl, rfl⟩ := hread
  obtain ⟨before, htokens, hspelled⟩ := htakes tokens first middle hfirst
  have hsteps : ∃ taken,
      middle = taken ++ (Reader.many (Reader.step operator operand) middle).2 ∧
        SpelledAfter level.looser
          (Reader.many (Reader.step operator operand) middle).1 taken := by
    apply Reader.many_takes
    · intro left before hleft
      rw [List.append_nil]
      exact hleft
    · rintro tokens ⟨op, right⟩ rest hread
      obtain ⟨middle, hop, hvalue⟩ := Reader.step_eq_some_iff.mp hread
      obtain ⟨hjoins, htokens⟩ := hoperator tokens op middle hop
      obtain ⟨taken, hmiddle, hright⟩ := htakes middle right rest hvalue
      refine ⟨.symbol op.symbol :: taken, ?_, ?_⟩
      · rw [htokens, hmiddle, List.cons_append]
      · intro steps following hfollowing left before hleft
        have hnext := hfollowing _ _
          (hjoin op left right before taken hjoins hleft hright)
        rw [List.append_assoc, List.cons_append] at hnext
        exact hnext
  obtain ⟨taken, hmiddle, hextends⟩ := hsteps
  refine ⟨before ++ taken, ?_, hextends first before (.looser hspelled)⟩
  rw [List.append_assoc, ← hmiddle]
  exact htokens

theorem Spelled.followers_nil {separator : Token} {level : Level} {taken : List Token}
    (hspelled : Spelled (.followers separator level []) taken) : taken = [] := by
  cases hspelled
  rfl

theorem Spelled.links_nil {taken : List Token} (hspelled : Spelled (.links []) taken) :
    taken = [] := by
  cases hspelled
  rfl

theorem Reader.Takes.joined {op : Junction} {operand : Reader Expr}
    (htakes : operand.Takes op.operandLevel) :
    (joined op op.keyword operand).Takes op.operandLevel.looser := by
  intro tokens e rest hread
  unfold RecordCondition.joined at hread
  simp only [Option.bind_eq_bind, Option.bind_eq_some_iff, Prod.exists,
    Option.some.injEq, Prod.mk.injEq] at hread
  obtain ⟨first, middle, hfirst, rfl, rfl⟩ := hread
  obtain ⟨before, htokens, hspelled⟩ := htakes tokens first middle hfirst
  obtain ⟨taken, hmiddle, hfollowers⟩ := htakes.followers
    (fun _ _ hkeyword => keyword_eq_some_iff.mp hkeyword) middle
  refine ⟨before ++ taken, ?_, ?_⟩
  · rw [List.append_assoc, ← hmiddle]
    exact htokens
  · generalize (Reader.many (Reader.step (keyword op.keyword) operand) middle).1.map
      Prod.snd = others at hfollowers
    cases others with
    | nil =>
        rw [hfollowers.followers_nil, List.append_nil]
        exact .looser hspelled
    | cons next others => exact .junction op hspelled hfollowers

theorem Expr.chain_spelled {left : Expr} {steps : List (Relation × Expr)}
    {before taken : List Token} (hleft : Spelled (.expr .arithmetic left) before)
    (hsteps : Spelled (.links steps) taken) :
    Spelled (.expr .comparison (.chain left steps)) (before ++ taken) := by
  cases steps with
  | nil =>
      rw [hsteps.links_nil, List.append_nil]
      exact .looser hleft
  | cons step steps => exact .compare hleft hsteps

theorem Spelled.single_element {value : Expr} {taken : List Token}
    (hspelled : Spelled (.elements [value] false) taken) :
    Spelled (.expr .disjunction value) taken := by
  cases hspelled with
  | someElements trailing hfirst hothers =>
      rw [hothers.followers_nil, trailingComma, List.append_nil, List.append_nil]
      exact hfirst

theorem Expr.ofRound_eq_tuple {values : List Expr} {trailing : Bool}
    (htuple : values.length ≠ 1 ∨ trailing = true) :
    Expr.ofRound (values, trailing) = .tuple values := by
  unfold Expr.ofRound
  split
  · next value heq =>
      obtain ⟨rfl, rfl⟩ := Prod.mk.inj heq
      simp at htuple
  · next others last _ heq =>
      obtain ⟨rfl, rfl⟩ := Prod.mk.inj heq
      rfl

theorem Expr.ofRound_spelled {contents : List Expr × Bool} {taken : List Token}
    (hspelled : Spelled (.elements contents.1 contents.2) taken) :
    Spelled (.expr .atom (.ofRound contents)) (Bracket.round.enclose taken) := by
  obtain ⟨values, trailing⟩ := contents
  by_cases hgroup : values.length = 1 ∧ trailing = false
  · obtain ⟨hsingle, rfl⟩ := hgroup
    obtain ⟨value, rfl⟩ := List.length_eq_one_iff.mp hsingle
    exact .group hspelled.single_element
  · have htuple : values.length ≠ 1 ∨ trailing = true := by
      rw [Classical.not_and_iff_not_or_not, Bool.not_eq_false] at hgroup
      exact hgroup
    rw [Expr.ofRound_eq_tuple htuple]
    exact .tuple htuple hspelled

/-! ## Brackets -/

section Ladder

variable {inner : Reader Expr} (hinner : inner.Takes .disjunction)

include hinner

theorem elements_takes (tokens : List Token) :
    ∃ taken, tokens = taken ++ (elements inner tokens).2 ∧
      Spelled (.elements (elements inner tokens).1.1 (elements inner tokens).1.2) taken := by
  have hend : ∀ tokens : List Token,
      (∃ rest, symbol .comma tokens = some ((), rest) ∧ tokens = .symbol .comma :: rest) ∨
        symbol .comma tokens = none := by
    intro tokens
    cases hcomma : symbol .comma tokens with
    | none => exact Or.inr rfl
    | some result => exact Or.inl ⟨result.2, rfl, symbol_eq_some_iff.mp hcomma⟩
  unfold elements
  cases hfirst : inner tokens with
  | none =>
      simp only
      rcases hend tokens with ⟨rest, hcomma, htokens⟩ | hcomma
      · rw [hcomma]
        exact ⟨[.symbol .comma], htokens, .noElement true⟩
      · rw [hcomma]
        exact ⟨[], rfl, .noElement false⟩
  | some result =>
      obtain ⟨first, middle⟩ := result
      obtain ⟨before, htokens, hspelled⟩ := hinner tokens first middle hfirst
      obtain ⟨taken, hmiddle, hfollowers⟩ := hinner.followers
        (fun _ _ hcomma => symbol_eq_some_iff.mp hcomma) middle
      simp only
      generalize Reader.many (Reader.step (symbol .comma) inner) middle = read
        at hmiddle hfollowers
      obtain ⟨steps, last⟩ := read
      rcases hend last with ⟨rest, hcomma, hlast⟩ | hcomma
      · simp only [hcomma]
        refine ⟨_, ?_, .someElements true hspelled hfollowers⟩
        rw [htokens, hmiddle, hlast]
        simp only [trailingComma, List.append_assoc, List.singleton_append]
      · simp only [hcomma]
        refine ⟨_, ?_, .someElements false hspelled hfollowers⟩
        rw [htokens, hmiddle]
        simp only [trailingComma, List.append_assoc, List.nil_append]

theorem enclosed_takes {bracket : Bracket} {tokens rest : List Token}
    {contents : List Expr × Bool}
    (hread : enclosed inner bracket tokens = some (contents, rest)) :
    ∃ taken, tokens = bracket.enclose taken ++ rest ∧
      Spelled (.elements contents.1 contents.2) taken := by
  unfold enclosed at hread
  simp only [Option.bind_eq_bind, Option.bind_eq_some_iff, Prod.exists,
    Option.some.injEq, Prod.mk.injEq] at hread
  obtain ⟨⟨⟩, opened, hopening, ⟨⟩, closed, hclosing, rfl, rfl⟩ := hread
  obtain ⟨taken, htaken, hspelled⟩ := elements_takes hinner opened
  refine ⟨taken, ?_, hspelled⟩
  rw [symbol_eq_some_iff] at hopening hclosing
  rw [hclosing] at htaken
  rw [hopening, htaken, Bracket.enclose]
  simp only [List.cons_append, List.append_assoc, List.nil_append]

theorem atom_takes : (atom inner).Takes .atom := by
  intro tokens e rest hread
  unfold atom at hread
  split at hread
  · obtain ⟨rfl, rfl⟩ := Prod.mk.inj (Option.some.inj hread)
    exact ⟨_, rfl, .constant (.number _)⟩
  · obtain ⟨rfl, rfl⟩ := Prod.mk.inj (Option.some.inj hread)
    exact ⟨_, rfl, .constant (.text _)⟩
  · obtain ⟨rfl, rfl⟩ := Prod.mk.inj (Option.some.inj hread)
    exact ⟨_, rfl, .constant (.truth _)⟩
  · obtain ⟨rfl, rfl⟩ := Prod.mk.inj (Option.some.inj hread)
    exact ⟨_, rfl, .name _⟩
  · split at hread
    · next contents after henclosed =>
        obtain ⟨taken, htokens, hspelled⟩ := enclosed_takes hinner henclosed
        obtain ⟨rfl, rfl⟩ := Prod.mk.inj (Option.some.inj hread)
        refine ⟨_, htokens, ?_⟩
        exact Expr.ofRound_spelled hspelled
    · simp only [Option.map_eq_some_iff, Prod.exists, Prod.mk.injEq] at hread
      obtain ⟨values, trailing, after, henclosed, rfl, rfl⟩ := hread
      obtain ⟨taken, htokens, hspelled⟩ := enclosed_takes hinner henclosed
      exact ⟨_, htokens, .list hspelled⟩

theorem trailer_takes {tokens rest : List Token} {found : Trailer}
    (hread : trailer inner tokens = some (found, rest)) :
    ∃ taken, tokens = taken ++ rest ∧
      ∀ value before, Spelled (.expr .postfixed value) before →
        Spelled (.expr .postfixed (found.apply value)) (before ++ taken) := by
  unfold trailer at hread
  split at hread
  · next field after =>
      obtain ⟨rfl, rfl⟩ := Prod.mk.inj (Option.some.inj hread)
      refine ⟨[.symbol .dot, .name field], rfl, ?_⟩
      intro value before hvalue
      exact .attributed field hvalue
  · next opened =>
      simp only [Option.bind_eq_bind, Option.bind_eq_some_iff, Prod.exists,
        Option.some.injEq, Prod.mk.injEq] at hread
      obtain ⟨index, closed, hindex, ⟨⟩, after, hclosing, rfl, rfl⟩ := hread
      rw [symbol_eq_some_iff] at hclosing
      obtain ⟨taken, htaken, hspelled⟩ := hinner opened index closed hindex
      refine ⟨Bracket.square.enclose taken, ?_, ?_⟩
      · rw [htaken, hclosing, Bracket.enclose]
        simp only [List.cons_append, List.append_assoc, List.nil_append]
      · intro value before hvalue
        exact .subscript hvalue hspelled
  · simp only [Option.map_eq_some_iff, Prod.exists, Prod.mk.injEq] at hread
    obtain ⟨arguments, trailing, after, henclosed, rfl, rfl⟩ := hread
    obtain ⟨taken, htokens, hspelled⟩ := enclosed_takes hinner henclosed
    refine ⟨_, htokens, ?_⟩
    intro value before hvalue
    exact .call hvalue hspelled

theorem postfixed_takes : (postfixed inner).Takes .postfixed := by
  intro tokens e rest hread
  unfold postfixed at hread
  simp only [Option.bind_eq_bind, Option.bind_eq_some_iff, Prod.exists,
    Option.some.injEq, Prod.mk.injEq] at hread
  obtain ⟨value, middle, hatom, rfl, rfl⟩ := hread
  obtain ⟨before, htokens, hspelled⟩ := atom_takes hinner tokens value middle hatom
  have htrailers : ∃ taken,
      middle = taken ++ (Reader.many (trailer inner) middle).2 ∧
        ∀ value before, Spelled (.expr .postfixed value) before →
          Spelled
            (.expr .postfixed
              ((Reader.many (trailer inner) middle).1.foldl Trailer.apply value))
            (before ++ taken) := by
    apply Reader.many_takes (P := fun trailers taken =>
      ∀ value before, Spelled (.expr .postfixed value) before →
        Spelled (.expr .postfixed (trailers.foldl Trailer.apply value)) (before ++ taken))
    · intro value before hvalue
      rw [List.append_nil]
      exact hvalue
    · intro tokens found rest hread
      obtain ⟨taken, htaken, happlies⟩ := trailer_takes hinner hread
      refine ⟨taken, htaken, ?_⟩
      intro trailers following hfollowing value before hvalue
      have hnext := hfollowing _ _ (happlies value before hvalue)
      rw [List.append_assoc] at hnext
      exact hnext
  obtain ⟨taken, hmiddle, hextends⟩ := htrailers
  refine ⟨before ++ taken, ?_, hextends value before (.looser hspelled)⟩
  rw [List.append_assoc, ← hmiddle]
  exact htokens

/-! ## The ladder -/

theorem signed_length_le {tokens rest : List Token}
    {found : List PrefixOperator × Expr}
    (hread : signed inner tokens = some (found, rest)) :
    rest.length ≤ tokens.length := by
  rw [signed_eq, Option.map_eq_some_iff] at hread
  obtain ⟨⟨value, after⟩, hvalue, heq⟩ := hread
  obtain ⟨-, rfl⟩ := Prod.mk.inj heq
  have hafter := (postfixed_takes hinner).length_le hvalue
  have hsigns := signs_length_le tokens
  omega

theorem factor_takes : (factor inner).Takes .factor := by
  intro tokens
  induction hlength : tokens.length using Nat.strongRecOn generalizing tokens with
  | ind length ih =>
      intro e rest hread
      rcases signs_cases tokens with ⟨token, op, after, rfl, hsign⟩ | hsigns
      · rw [factor_sign inner hsign, Option.map_eq_some_iff] at hread
        obtain ⟨⟨value, last⟩, hvalue, heq⟩ := hread
        obtain ⟨rfl, rfl⟩ := Prod.mk.inj heq
        have hshorter : after.length < length := by
          rw [← hlength, List.length_cons]
          omega
        obtain ⟨taken, rfl, hspelled⟩ := ih _ hshorter after rfl value last hvalue
        obtain ⟨hop, rfl⟩ := Token.prefixSign_eq_some_iff.mp hsign
        exact ⟨op.token :: taken, rfl, .sign hop hspelled⟩
      · cases hbase : postfixed inner tokens with
        | none =>
            rw [factor_eq_none inner hsigns hbase] at hread
            exact absurd hread (by simp)
        | some result =>
            obtain ⟨base, middle⟩ := result
            obtain ⟨before, htokens, hspelled⟩ :=
              postfixed_takes hinner tokens base middle hbase
            by_cases hpower : ∃ after, middle = .symbol .power :: after
            · obtain ⟨after, rfl⟩ := hpower
              rw [factor_of_power inner hsigns hbase
                (fun _ _ hsigned => signed_length_le hinner hsigned)] at hread
              have hshorter : after.length < length := by
                rw [← hlength, htokens, List.length_append, List.length_cons]
                omega
              cases hexponent : factor inner after with
              | none =>
                  rw [hexponent] at hread
                  obtain ⟨rfl, rfl⟩ := Prod.mk.inj (Option.some.inj hread)
                  exact ⟨before, htokens, .looser hspelled⟩
              | some result =>
                  obtain ⟨value, last⟩ := result
                  rw [hexponent] at hread
                  obtain ⟨rfl, rfl⟩ := Prod.mk.inj (Option.some.inj hread)
                  obtain ⟨taken, rfl, hvalue⟩ :=
                    ih _ hshorter after rfl value last hexponent
                  refine ⟨before ++ .symbol .power :: taken, ?_, .power hspelled hvalue⟩
                  rw [htokens, List.append_assoc, List.cons_append]
            · rw [factor_of_base inner hsigns hbase (not_exists.mp hpower)] at hread
              obtain ⟨rfl, rfl⟩ := Prod.mk.inj (Option.some.inj hread)
              exact ⟨before, htokens, .looser hspelled⟩

theorem term_takes : (term inner).Takes .term := by
  change (leftChain productOperator (factor inner)).Takes Level.factor.looser
  apply (factor_takes hinner).leftChain
  · intro tokens op rest hread
    exact productOperator_eq_some hread
  · intro op left right before following hproduct hleft hright
    exact .product hproduct hleft hright

theorem arithmetic_takes : (arithmetic inner).Takes .arithmetic := by
  change (leftChain sumOperator (term inner)).Takes Level.term.looser
  apply (term_takes hinner).leftChain
  · intro tokens op rest hread
    exact sumOperator_eq_some hread
  · intro op left right before following hsum hleft hright
    exact .sum hsum hleft hright

theorem comparison_takes : (comparison inner).Takes .comparison := by
  intro tokens e rest hread
  unfold comparison at hread
  simp only [Option.bind_eq_bind, Option.bind_eq_some_iff, Prod.exists,
    Option.some.injEq, Prod.mk.injEq] at hread
  obtain ⟨left, middle, hleft, rfl, rfl⟩ := hread
  obtain ⟨before, htokens, hspelled⟩ := arithmetic_takes hinner tokens left middle hleft
  obtain ⟨taken, hmiddle, hlinks⟩ := (arithmetic_takes hinner).links middle
  refine ⟨before ++ taken, ?_, Expr.chain_spelled hspelled hlinks⟩
  rw [List.append_assoc, ← hmiddle]
  exact htokens

theorem negation_takes : (negation inner).Takes .negation := by
  intro tokens
  induction tokens with
  | nil =>
      intro e rest hread
      rw [negation_of_ne_not inner (by simp)] at hread
      obtain ⟨taken, htokens, hspelled⟩ := comparison_takes hinner [] e rest hread
      exact ⟨taken, htokens, .looser hspelled⟩
  | cons token tokens ih =>
      intro e rest hread
      by_cases hnot : token = .keyword .not
      · subst hnot
        rw [negation_not, Option.map_eq_some_iff] at hread
        obtain ⟨⟨value, after⟩, hvalue, heq⟩ := hread
        obtain ⟨rfl, rfl⟩ := Prod.mk.inj heq
        obtain ⟨taken, rfl, hspelled⟩ := ih value after hvalue
        exact ⟨.keyword .not :: taken, rfl, .not hspelled⟩
      · rw [negation_of_ne_not inner (by simp [hnot])] at hread
        obtain ⟨taken, htokens, hspelled⟩ :=
          comparison_takes hinner (token :: tokens) e rest hread
        exact ⟨taken, htokens, .looser hspelled⟩

theorem conjunction_takes : (conjunction inner).Takes .conjunction :=
  Reader.Takes.joined (negation_takes hinner)

theorem disjunction_takes : (disjunction inner).Takes .disjunction :=
  Reader.Takes.joined (conjunction_takes hinner)

end Ladder

/-- Whatever is read at the front of some tokens is spelled there. -/
theorem expression_takes (depth : Nat) : Reader.Takes (expression depth) .disjunction := by
  induction depth with
  | zero =>
      intro tokens e rest hread
      exact absurd hread (by simp)
  | succ depth ih =>
      intro tokens e rest hread
      rw [expression_succ] at hread
      exact disjunction_takes ih tokens e rest hread

end RecordCondition
