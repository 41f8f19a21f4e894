import RecordCondition.Proofs.Spelling.Edges
import RecordCondition.Proofs.Spelling.WellFormed

/-!
# Writing expressions out

The canonical text of an expression has brackets just where the precedence of its
parts asks for them and one blank between any two tokens.  Quotations stand in double
marks, with a backslash in front of such marks and of backslashes, and words are in
small letters.
-/

namespace RecordCondition

/-! ## Tokens -/

def escape : List Char → List Char
  | [] => []
  | c :: text =>
      if c = '"' ∨ c = '\\' then '\\' :: c :: escape text else c :: escape text

def Token.characters : Token → List Char
  | .name id => id.toList
  | .keyword word => word.text.toList
  | .truth true => "true".toList
  | .truth false => "false".toList
  | .number digits => digits.toList
  | .quoted text => '"' :: (escape text.toList ++ ['"'])
  | .symbol mark => mark.text.toList
  | .stray => []

def spaced : List Token → List Char
  | [] => []
  | [token] => token.characters
  | token :: next :: tokens => token.characters ++ ' ' :: spaced (next :: tokens)

theorem quoted_escape (text : List Char) : Quoted '"' text (escape text) := by
  induction text with
  | nil => exact .nil
  | cons c text ih =>
      rw [escape]
      split
      · next hmark =>
          rcases hmark with rfl | rfl
          · exact .escaped '"' ih
          · exact .escaped '\\' ih
      · next hplain =>
          rw [not_or] at hplain
          exact .plain hplain.1 hplain.2 ih

theorem Token.written_characters {token : Token} (hwritable : token.Writable) :
    token.Written token.characters := by
  obtain ⟨cs, hwritten⟩ := hwritable
  cases token with
  | name id =>
      obtain ⟨rfl, hname⟩ := hwritten
      exact ⟨rfl, hname⟩
  | keyword word => cases word <;> rfl
  | truth value => cases value <;> rfl
  | number digits =>
      obtain ⟨rfl, hnumber⟩ := hwritten
      exact ⟨rfl, hnumber⟩
  | quoted text => exact ⟨'"', _, Or.inr rfl, quoted_escape _, rfl⟩
  | symbol mark => rfl
  | stray => exact hwritten

theorem Layout.spaced {tokens : List Token}
    (hwritable : ∀ token ∈ tokens, token.Writable) (afterOperand : Bool) :
    Layout afterOperand tokens (spaced tokens) := by
  fun_induction RecordCondition.spaced tokens generalizing afterOperand with
  | case1 => exact .nil afterOperand
  | case2 token =>
      rw [List.forall_mem_singleton] at hwritable
      have hlast : Layout afterOperand [token] (token.characters ++ []) :=
        .token (Token.written_characters hwritable) (.nil token.endsOperand) (by simp)
      rw [List.append_nil] at hlast
      exact hlast
  | case3 token next tokens ih =>
      rw [List.forall_mem_cons] at hwritable
      apply Layout.token (Token.written_characters hwritable.1)
        (.blank rfl (ih hwritable.2 token.endsOperand))
      intro _ _ _ _
      exact ⟨' ', _, rfl, rfl⟩

/-! ## The tokens of well-formed expressions -/

theorem Token.writable_keyword (word : Keyword) : (Token.keyword word).Writable := by
  refine ⟨word.text.toList, ?_⟩
  cases word <;> rfl

theorem Relation.writable_tokens (relation : Relation) :
    ∀ token ∈ relation.tokens, token.Writable := by
  cases relation with
  | «in» | is =>
      rw [Relation.tokens, List.forall_mem_singleton]
      exact Token.writable_keyword _
  | notIn | isNot =>
      rw [Relation.tokens, List.forall_mem_cons, List.forall_mem_singleton]
      exact ⟨Token.writable_keyword _, Token.writable_keyword _⟩
  | _ =>
      rw [Relation.tokens, List.forall_mem_singleton]
      exact Token.writable_symbol _

theorem PrefixOperator.writable_token (op : PrefixOperator) : op.token.Writable := by
  cases op with
  | not => exact Token.writable_keyword _
  | _ => exact Token.writable_symbol _

theorem Literal.writable_token {value : Literal}
    (hwellFormed : Expr.WellFormed (.constant value)) : value.token.Writable := by
  cases hwellFormed with
  | text value => exact ⟨_, '"', _, Or.inr rfl, quoted_escape _, rfl⟩
  | number hnumber => exact ⟨_, rfl, hnumber⟩
  | truth value =>
      cases value with
      | true => exact ⟨"true".toList, rfl⟩
      | false => exact ⟨"false".toList, rfl⟩

theorem writable_trailingComma (trailing : Bool) :
    ∀ token ∈ trailingComma trailing, token.Writable := by
  cases trailing with
  | true =>
      rw [trailingComma, List.forall_mem_singleton]
      exact Token.writable_symbol .comma
  | false => exact fun _ hmem => absurd hmem List.not_mem_nil

def Phrase.Writable : Phrase → List Token → Prop
  | .followers separator level values, tokens =>
      separator.Writable → (Phrase.followers separator level values).WellFormed →
        ∀ token ∈ tokens, token.Writable
  | phrase, tokens => phrase.WellFormed → ∀ token ∈ tokens, token.Writable

theorem Spelled.phrase_writable {phrase : Phrase} {tokens : List Token}
    (hspelled : Spelled phrase tokens) : phrase.Writable tokens := by
  induction hspelled with
  | looser _ ih => exact ih
  | junction op _ _ ihfirst ihothers =>
      rintro ⟨-, hvalues⟩
      rw [List.forall_mem_cons] at hvalues
      rw [List.forall_mem_append]
      exact ⟨ihfirst hvalues.1, ihothers (Token.writable_keyword _) hvalues.2⟩
  | not _ ih =>
      rintro ⟨⟩
      rw [List.forall_mem_cons]
      exact ⟨Token.writable_keyword _, ih ‹_›⟩
  | compare _ _ ihleft ihsteps =>
      intro hwellFormed
      cases hwellFormed with
      | compare _ _ hleft hoperands =>
          rw [List.forall_mem_append]
          exact ⟨ihleft hleft, ihsteps hoperands⟩
  | sum _ _ _ ihleft ihright =>
      rintro ⟨⟩
      rw [List.forall_mem_append, List.forall_mem_cons]
      exact ⟨ihleft ‹_›, Token.writable_symbol _, ihright ‹_›⟩
  | product _ _ _ ihleft ihright =>
      rintro ⟨⟩
      rw [List.forall_mem_append, List.forall_mem_cons]
      exact ⟨ihleft ‹_›, Token.writable_symbol _, ihright ‹_›⟩
  | @sign op _ _ _ _ ih =>
      rintro ⟨⟩
      rw [List.forall_mem_cons]
      exact ⟨op.writable_token, ih ‹_›⟩
  | power _ _ ihbase ihexponent =>
      rintro ⟨⟩
      rw [List.forall_mem_append, List.forall_mem_cons]
      exact ⟨ihbase ‹_›, Token.writable_symbol _, ihexponent ‹_›⟩
  | call _ _ ihfunction iharguments =>
      rintro ⟨⟩
      rw [List.forall_mem_append, Bracket.writable_enclose_iff]
      exact ⟨ihfunction ‹_›, iharguments ‹_›⟩
  | attributed field _ ih =>
      rintro ⟨⟩
      rw [List.forall_mem_append, List.forall_mem_cons, List.forall_mem_singleton]
      exact ⟨ih ‹_›, Token.writable_symbol _, _, rfl, ‹_›⟩
  | subscript _ _ ihvalue ihindex =>
      rintro ⟨⟩
      rw [List.forall_mem_append, Bracket.writable_enclose_iff]
      exact ⟨ihvalue ‹_›, ihindex ‹_›⟩
  | name id =>
      rintro ⟨⟩
      rw [List.forall_mem_singleton]
      exact ⟨_, rfl, ‹_›⟩
  | constant value =>
      intro hwellFormed
      rw [List.forall_mem_singleton]
      exact Literal.writable_token hwellFormed
  | group _ ih =>
      intro hwellFormed
      rw [Bracket.writable_enclose_iff]
      exact ih hwellFormed
  | tuple _ _ ih =>
      rintro ⟨⟩
      rw [Bracket.writable_enclose_iff]
      exact ih ‹_›
  | list _ ih =>
      rintro ⟨⟩
      rw [Bracket.writable_enclose_iff]
      exact ih ‹_›
  | noFollower _ _ => exact fun _ _ _ hmem => absurd hmem List.not_mem_nil
  | follower _ _ ihvalue ihvalues =>
      intro hseparator hvalues
      rw [Phrase.WellFormed, List.forall_mem_cons] at hvalues
      rw [List.forall_mem_cons, List.forall_mem_append]
      exact ⟨hseparator, ihvalue hvalues.1, ihvalues hseparator hvalues.2⟩
  | noLink => exact fun _ _ hmem => absurd hmem List.not_mem_nil
  | link relation _ _ ihvalue ihsteps =>
      intro hvalues
      rw [Phrase.WellFormed, List.map_cons, List.forall_mem_cons] at hvalues
      rw [List.forall_mem_append, List.forall_mem_append]
      exact ⟨relation.writable_tokens, ihvalue hvalues.1, ihsteps hvalues.2⟩
  | noElement trailing => exact fun _ => writable_trailingComma trailing
  | someElements trailing _ _ ihfirst ihothers =>
      intro hvalues
      rw [Phrase.WellFormed, List.forall_mem_cons] at hvalues
      rw [List.forall_mem_append, List.forall_mem_append]
      exact ⟨ihfirst hvalues.1, ihothers (Token.writable_symbol _) hvalues.2,
        writable_trailingComma trailing⟩

/-! ## Expressions -/

def PrefixOperator.level : PrefixOperator → Level
  | .not => .negation
  | _ => .factor

/-- The level of what the operator joins, and those of its two sides. -/
def BinaryOperator.level : BinaryOperator → Level
  | .add | .subtract => .arithmetic
  | .power => .factor
  | _ => .term

def BinaryOperator.leftLevel : BinaryOperator → Level
  | .add | .subtract => .arithmetic
  | .power => .postfixed
  | _ => .term

def BinaryOperator.rightLevel : BinaryOperator → Level
  | .add | .subtract => .term
  | _ => .factor

/-- The tightest level at which an expression can be written without brackets
around it. -/
def Expr.level : Expr → Level
  | .junction op _ => op.operandLevel.looser
  | .compare .. => .comparison
  | .prefixed op _ => op.level
  | .binary op _ _ => op.level
  | .call .. | .attribute .. | .subscript .. => .postfixed
  | .name _ | .constant _ | .list _ | .tuple _ => .atom

/-- Tokens of an expression of some level as they may stand at another. -/
def Level.fit (level own : Level) (tokens : List Token) : List Token :=
  if own.rank ≤ level.rank then tokens else Bracket.round.enclose tokens

mutual

def Expr.tokens : Expr → List Token
  | .junction op values =>
      (Expr.followers (.keyword op.keyword) op.operandLevel values).tail
  | .compare left relations operands =>
      Level.arithmetic.fit left.level left.tokens ++ Expr.linked relations operands
  | .name id => [.name id]
  | .constant value => [value.token]
  | .prefixed op operand => op.token :: op.level.fit operand.level operand.tokens
  | .binary op left right =>
      op.leftLevel.fit left.level left.tokens ++
        .symbol op.symbol :: op.rightLevel.fit right.level right.tokens
  | .call function arguments =>
      Level.postfixed.fit function.level function.tokens ++
        Bracket.round.enclose (Expr.followers (.symbol .comma) .disjunction arguments).tail
  | .attribute value field =>
      Level.postfixed.fit value.level value.tokens ++ [.symbol .dot, .name field]
  | .subscript value index =>
      Level.postfixed.fit value.level value.tokens ++ Bracket.square.enclose index.tokens
  | .list elements =>
      Bracket.square.enclose (Expr.followers (.symbol .comma) .disjunction elements).tail
  | .tuple elements =>
      Bracket.round.enclose ((Expr.followers (.symbol .comma) .disjunction elements).tail ++
        trailingComma (elements.length = 1))

/-- The tokens of some expressions, each with a separator in front of it. -/
def Expr.followers (separator : Token) (level : Level) : List Expr → List Token
  | [] => []
  | value :: values =>
      separator :: (level.fit value.level value.tokens ++
        Expr.followers separator level values)

/-- The tokens of operands of a comparison, each with its relation in front of it. -/
def Expr.linked : List Relation → List Expr → List Token
  | relation :: relations, operand :: operands =>
      relation.tokens ++ (Level.arithmetic.fit operand.level operand.tokens ++
        Expr.linked relations operands)
  | _, _ => []

end

def Expr.canonical (e : Expr) : String :=
  String.ofList (spaced e.tokens)

/-! ## Canonical texts spell -/

theorem Spelled.loosen {own level : Level} {e : Expr} {tokens : List Token}
    (hspelled : Spelled (.expr own e) tokens) (hrank : own.rank ≤ level.rank) :
    Spelled (.expr level e) tokens := by
  have hloosened : ∀ count, Spelled (.expr (Nat.repeat Level.looser count own) e) tokens := by
    intro count
    induction count with
    | zero => exact hspelled
    | succ count ih => exact .looser ih
  have hlevel : Nat.repeat Level.looser (level.rank - own.rank) own = level := by
    cases own <;> cases level <;> first | rfl | exact absurd hrank (by decide)
  rw [← hlevel]
  exact hloosened _

theorem Level.rank_le_disjunction (level : Level) : level.rank ≤ Level.disjunction.rank := by
  cases level <;> decide

theorem Spelled.fit {own : Level} {e : Expr} {tokens : List Token}
    (hspelled : Spelled (.expr own e) tokens) (level : Level) :
    Spelled (.expr level e) (level.fit own tokens) := by
  unfold Level.fit
  split
  · next hrank => exact hspelled.loosen hrank
  · have hgroup := Spelled.group (hspelled.loosen own.rank_le_disjunction)
    exact hgroup.loosen (Nat.zero_le _)

/-- The tokens of an expression spell it at its own level. -/
def Expr.Spells (e : Expr) : Prop :=
  Spelled (.expr e.level e) e.tokens

theorem Expr.spelled_followers {values : List Expr} (hvalues : ∀ value ∈ values, value.Spells)
    (separator : Token) (level : Level) :
    Spelled (.followers separator level values) (Expr.followers separator level values) := by
  induction values with
  | nil => exact .noFollower separator level
  | cons value values ih =>
      rw [List.forall_mem_cons] at hvalues
      exact .follower (hvalues.1.fit level) (ih hvalues.2)

theorem Expr.spelled_linked {steps : List (Relation × Expr)}
    (hvalues : ∀ value ∈ steps.map Prod.snd, value.Spells) :
    Spelled (.links steps) (Expr.linked (steps.map Prod.fst) (steps.map Prod.snd)) := by
  induction steps with
  | nil => exact .noLink
  | cons step steps ih =>
      rw [List.map_cons, List.forall_mem_cons] at hvalues
      exact .link step.1 (hvalues.1.fit .arithmetic) (ih hvalues.2)

theorem Expr.spelled_elements {values : List Expr} (hvalues : ∀ value ∈ values, value.Spells)
    (trailing : Bool) :
    Spelled (.elements values trailing)
      ((Expr.followers (.symbol .comma) .disjunction values).tail ++ trailingComma trailing) := by
  cases values with
  | nil => exact .noElement trailing
  | cons first others =>
      rw [List.forall_mem_cons] at hvalues
      have hothers := Expr.spelled_followers hvalues.2 (.symbol .comma) .disjunction
      rw [Expr.followers, List.tail_cons, List.append_assoc]
      exact .someElements trailing (hvalues.1.fit .disjunction) hothers

theorem exists_steps {relations : List Relation} {operands : List Expr}
    (hnonempty : relations ≠ []) (hlength : relations.length = operands.length) :
    ∃ step steps, (step :: steps : List (Relation × Expr)).map Prod.fst = relations ∧
      (step :: steps : List (Relation × Expr)).map Prod.snd = operands := by
  cases hsteps : relations.zip operands with
  | nil =>
      have hzero : relations.length = 0 := by
        rw [← List.length_eq_zero_iff, List.length_zip, hlength, Nat.min_self] at hsteps
        rw [hlength, hsteps]
      exact absurd (List.length_eq_zero_iff.mp hzero) hnonempty
  | cons step steps =>
      refine ⟨step, steps, ?_, ?_⟩
      · rw [← hsteps]
        exact List.map_fst_zip (Nat.le_of_eq hlength)
      · rw [← hsteps]
        exact List.map_snd_zip (Nat.le_of_eq hlength.symm)

/-- An expression with its junctions and comparisons complete is spelled by its tokens. -/
theorem Expr.WellFormed.spells {e : Expr} (hwellFormed : e.WellFormed) : e.Spells := by
  induction hwellFormed with
  | @junction op values hlength _ ih =>
      obtain ⟨first, next, others, rfl⟩ : ∃ first next others,
          values = first :: next :: others := by
        match values, hlength with
        | first :: next :: others, _ => exact ⟨first, next, others, rfl⟩
      rw [List.forall_mem_cons] at ih
      exact .junction op (ih.1.fit op.operandLevel)
        (Expr.spelled_followers ih.2 (.keyword op.keyword) op.operandLevel)
  | @compare left relations operands hnonempty hlength _ _ ihleft ihoperands =>
      obtain ⟨step, steps, rfl, rfl⟩ := exists_steps hnonempty hlength
      exact .compare (ihleft.fit .arithmetic) (Expr.spelled_linked ihoperands)
  | name _ => exact .name _
  | text _ => exact .constant _
  | number _ => exact .constant _
  | truth _ => exact .constant _
  | prefixed op _ ih =>
      cases op with
      | not => exact .not (ih.fit .negation)
      | _ => exact .sign (by decide) (ih.fit .factor)
  | binary op _ _ ihleft ihright =>
      cases op with
      | add | subtract =>
          exact .sum trivial (ihleft.fit .arithmetic) (ihright.fit .term)
      | power => exact .power (ihleft.fit .postfixed) (ihright.fit .factor)
      | _ => exact .product trivial (ihleft.fit .term) (ihright.fit .factor)
  | call _ _ ihfunction iharguments =>
      have harguments := Expr.spelled_elements iharguments false
      rw [trailingComma, List.append_nil] at harguments
      exact .call (ihfunction.fit .postfixed) harguments
  | attributed _ _ ih => exact .attributed _ (ih.fit .postfixed)
  | subscript _ _ ihvalue ihindex =>
      exact .subscript (ihvalue.fit .postfixed)
        (ihindex.loosen (Level.rank_le_disjunction _))
  | list _ ih =>
      have helements := Expr.spelled_elements ih false
      rw [trailingComma, List.append_nil] at helements
      exact .list helements
  | @tuple elements _ ih =>
      refine .tuple ?_ (Expr.spelled_elements ih _)
      rw [decide_eq_true_iff]
      exact (Decidable.em (elements.length = 1)).symm

theorem Expr.WellFormed.writtenAs_canonical {e : Expr} (hwellFormed : e.WellFormed) :
    e.WrittenAs e.canonical := by
  have hspelled : Spelled (.expr .disjunction e) e.tokens :=
    hwellFormed.spells.loosen e.level.rank_le_disjunction
  have hwritable : ∀ token ∈ e.tokens, token.Writable :=
    hspelled.phrase_writable hwellFormed
  refine ⟨e.tokens, hspelled, ?_⟩
  rw [Expr.canonical, String.toList_ofList]
  exact Layout.spaced hwritable false

/-- The well-formed expressions are those that can be written out. -/
theorem Expr.wellFormed_iff_exists_writtenAs (e : Expr) :
    e.WellFormed ↔ ∃ text, e.WrittenAs text := by
  constructor
  · intro hwellFormed
    exact ⟨e.canonical, hwellFormed.writtenAs_canonical⟩
  · rintro ⟨text, tokens, hspelled, hlayout⟩
    exact hspelled.phrase_wellFormed hlayout.writable

end RecordCondition
