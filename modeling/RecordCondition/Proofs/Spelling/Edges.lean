import RecordCondition.Proofs.Spelling.Grammar

/-!
# How spellings begin and where they stop

The first token of a spelling is one that its level of precedence allows, and a
spelling of a level ends before a token that could only carry on something
looser.
-/

namespace RecordCondition

def Level.rank : Level → Nat
  | .atom => 0
  | .postfixed => 1
  | .factor => 2
  | .term => 3
  | .arithmetic => 4
  | .comparison => 5
  | .negation => 6
  | .conjunction => 7
  | .disjunction => 8

theorem Level.rank_le_rank_looser (level : Level) : level.rank ≤ level.looser.rank := by
  cases level <;> decide

/-! ## First tokens -/

/-- The tightest level at which an expression may begin with the token. -/
def Token.leads : Token → Option Level
  | .name _ | .truth _ | .number _ | .quoted _ | .symbol (.opening _) => some .atom
  | .symbol .minus | .symbol .plus | .symbol .tilde => some .factor
  | .keyword .not => some .negation
  | _ => none

/-- The tokens begin as an expression of the level may. -/
def Begins (level : Level) (tokens : List Token) : Prop :=
  ∃ token tail lead, tokens = token :: tail ∧ token.leads = some lead ∧
    lead.rank ≤ level.rank

theorem Begins.append {level : Level} {tokens : List Token}
    (hbegins : Begins level tokens) (rest : List Token) :
    Begins level (tokens ++ rest) := by
  obtain ⟨token, tail, lead, rfl, hlead, hrank⟩ := hbegins
  exact ⟨token, tail ++ rest, lead, rfl, hlead, hrank⟩

theorem Begins.mono {level looser : Level} {tokens : List Token}
    (hbegins : Begins level tokens) (hrank : level.rank ≤ looser.rank) :
    Begins looser tokens := by
  obtain ⟨token, tail, lead, htokens, hlead, hle⟩ := hbegins
  exact ⟨token, tail, lead, htokens, hlead, Nat.le_trans hle hrank⟩

theorem Begins.of_leads {token : Token} {lead level : Level}
    (hlead : token.leads = some lead) (hrank : lead.rank ≤ level.rank)
    (tail : List Token) : Begins level (token :: tail) :=
  ⟨token, tail, lead, rfl, hlead, hrank⟩

theorem not_begins_of_leads_eq_none {token : Token} (hlead : token.leads = none)
    (level : Level) (tail : List Token) : ¬ Begins level (token :: tail) := by
  rintro ⟨first, others, lead, heq, hfirst, -⟩
  obtain ⟨rfl, rfl⟩ := List.cons.inj heq
  rw [hlead] at hfirst
  exact absurd hfirst (by simp)

def Phrase.Begins : Phrase → List Token → Prop
  | .expr level _, tokens => RecordCondition.Begins level tokens
  | _, _ => True

theorem Spelled.phrase_begins {phrase : Phrase} {tokens : List Token}
    (hspelled : Spelled phrase tokens) : phrase.Begins tokens := by
  induction hspelled with
  | @looser level _ _ _ ih => exact RecordCondition.Begins.mono ih level.rank_le_rank_looser
  | junction op _ _ ih _ =>
      exact (RecordCondition.Begins.mono ih op.operandLevel.rank_le_rank_looser).append _
  | not _ _ => exact .of_leads rfl (by decide) _
  | compare _ _ ih _ => exact (RecordCondition.Begins.mono ih (by decide)).append _
  | sum _ _ _ ih _ => exact RecordCondition.Begins.append ih _
  | product _ _ _ ih _ => exact RecordCondition.Begins.append ih _
  | @sign op _ _ hop _ _ =>
      cases op with
      | not => exact absurd rfl hop
      | _ => exact .of_leads rfl (by decide) _
  | power _ _ ih _ => exact (RecordCondition.Begins.mono ih (by decide)).append _
  | call _ _ ih _ => exact RecordCondition.Begins.append ih _
  | attributed _ _ ih => exact RecordCondition.Begins.append ih _
  | subscript _ _ ih _ => exact RecordCondition.Begins.append ih _
  | name _ => exact .of_leads rfl (by decide) _
  | constant value => cases value <;> exact .of_leads rfl (by decide) _
  | group _ _ => exact .of_leads rfl (by decide) _
  | tuple _ _ _ => exact .of_leads rfl (by decide) _
  | list _ _ => exact .of_leads rfl (by decide) _
  | _ => trivial

theorem Spelled.begins {level : Level} {e : Expr} {tokens : List Token}
    (hspelled : Spelled (.expr level e) tokens) : Begins level tokens :=
  hspelled.phrase_begins

theorem Begins.ne_not {level : Level} {tokens : List Token}
    (hbegins : Begins level tokens) (hrank : level.rank < Level.negation.rank)
    (rest : List Token) : tokens ≠ .keyword .not :: rest := by
  obtain ⟨token, tail, lead, rfl, hlead, hle⟩ := hbegins
  intro heq
  obtain ⟨rfl, rfl⟩ := List.cons.inj heq
  obtain rfl := Option.some.inj hlead
  omega

theorem Begins.signs_eq {level : Level} {tokens : List Token}
    (hbegins : Begins level tokens) (hrank : level.rank < Level.factor.rank) :
    signs tokens = ([], tokens) := by
  obtain ⟨token, tail, lead, rfl, hlead, hle⟩ := hbegins
  have hsign : token.prefixSign = none := by
    unfold Token.prefixSign
    split
    all_goals
      first
      | rfl
      | obtain rfl := Option.some.inj hlead
        exact absurd (Nat.lt_of_le_of_lt hle hrank) (by decide)
  rw [signs, hsign]

/-! ## Tokens that carry on -/

/-- The level of the expressions that the token may carry on. -/
def Token.carriesOn : Token → Option Level
  | .symbol (.opening _) | .symbol .dot => some .postfixed
  | .symbol .power => some .factor
  | .symbol .star | .symbol .slash | .symbol .doubleSlash | .symbol .percent => some .term
  | .symbol .plus | .symbol .minus => some .arithmetic
  | .symbol .equal | .symbol .notEqual | .symbol .less | .symbol .lessEqual
  | .symbol .greater | .symbol .greaterEqual
  | .keyword .in | .keyword .is | .keyword .not => some .comparison
  | .keyword .and => some .conjunction
  | .keyword .or => some .disjunction
  | _ => none

/-- Nothing at the front of the tokens carries on an expression of the level. -/
def Stops (level : Level) (tokens : List Token) : Prop :=
  ∀ token tail carried, tokens = token :: tail → token.carriesOn = some carried →
    level.rank < carried.rank

theorem Stops.nil (level : Level) : Stops level [] := by
  intro token tail carried heq
  exact absurd heq (by simp)

theorem Stops.of_carriesOn {level carried : Level} {token : Token}
    (hcarries : token.carriesOn = some carried) (hrank : level.rank < carried.rank)
    (tail : List Token) : Stops level (token :: tail) := by
  intro first others found heq hfound
  obtain ⟨rfl, rfl⟩ := List.cons.inj heq
  rw [hcarries] at hfound
  obtain rfl := Option.some.inj hfound
  exact hrank

theorem Stops.of_carriesOn_eq_none {token : Token} (hcarries : token.carriesOn = none)
    (level : Level) (tail : List Token) : Stops level (token :: tail) := by
  intro first others found heq hfound
  obtain ⟨rfl, rfl⟩ := List.cons.inj heq
  rw [hcarries] at hfound
  exact absurd hfound (by simp)

theorem Stops.mono {level tighter : Level} {tokens : List Token}
    (hstops : Stops level tokens) (hrank : tighter.rank ≤ level.rank) :
    Stops tighter tokens := by
  intro token tail carried htokens hcarried
  exact Nat.lt_of_le_of_lt hrank (hstops token tail carried htokens hcarried)

theorem Stops.ne {level carried : Level} {tokens : List Token}
    (hstops : Stops level tokens) {token : Token}
    (hcarries : token.carriesOn = some carried) (hrank : carried.rank ≤ level.rank)
    (tail : List Token) : tokens ≠ token :: tail := by
  intro htokens
  have hlt := hstops token tail carried htokens hcarries
  omega

theorem Stops.atom (tokens : List Token) : Stops .atom tokens := by
  intro token tail carried _ hcarried
  unfold Token.carriesOn at hcarried
  split at hcarried <;> simp only [Option.some.injEq, reduceCtorEq] at hcarried <;>
    subst hcarried <;> decide

end RecordCondition
