import RecordCondition.Proofs.Spelling.Edges
import RecordCondition.Proofs.Spelling.Placement

/-!
# Where `not` stands in front of `in`

In a spelling `not` and `in` stand side by side only as one relation, and so only
behind an operand.  A `not` that is a prefix, or that follows `is`, has an operand
behind it, and no operand begins with `in`.
-/

namespace RecordCondition

/-- A `not` that has no operand in front of it has no `in` behind it. -/
def Unjoined : Bool → List Token → Prop
  | _, [] => True
  | afterOperand, token :: tokens =>
      (afterOperand = false → token = .keyword .not → tokens.head? ≠ some (.keyword .in)) ∧
        Unjoined token.endsOperand tokens

theorem Unjoined.append {afterOperand : Bool} {first second : List Token}
    (hfirst : Unjoined afterOperand first)
    (hsecond : Unjoined (operandEnds afterOperand first) second)
    (hbetween : operandEnds afterOperand first = true ∨
      second.head? ≠ some (.keyword .in)) :
    Unjoined afterOperand (first ++ second) := by
  induction first generalizing afterOperand with
  | nil => exact hsecond
  | cons token tokens ih =>
      refine ⟨?_, ih hfirst.2 hsecond hbetween⟩
      rintro hafter rfl
      cases tokens with
      | nil => exact hbetween.resolve_left Bool.false_ne_true
      | cons next others => exact hfirst.1 hafter rfl

theorem Unjoined.cons {afterOperand : Bool} {token : Token} {tokens : List Token}
    (htoken : token ≠ .keyword .not) (htokens : Unjoined token.endsOperand tokens) :
    Unjoined afterOperand (token :: tokens) :=
  ⟨fun _ heq => absurd heq htoken, htokens⟩

theorem Begins.head?_ne_in {level : Level} {tokens : List Token}
    (hbegins : Begins level tokens) : tokens.head? ≠ some (.keyword .in) := by
  obtain ⟨token, tail, lead, rfl, hlead, -⟩ := hbegins
  rintro heq
  obtain rfl := Option.some.inj heq
  cases hlead

def Phrase.Unjoined : Phrase → List Token → Prop
  | .expr _ _, tokens => RecordCondition.Unjoined false tokens
  | .followers separator _ _, tokens =>
      separator ≠ .keyword .not → separator.endsOperand = false →
        RecordCondition.Unjoined true tokens
  | .links _, tokens => RecordCondition.Unjoined true tokens
  | .elements _ _, tokens => RecordCondition.Unjoined false tokens

theorem Unjoined.enclose {afterOperand : Bool} {tokens : List Token} (bracket : Bracket)
    (htokens : Unjoined false tokens) : Unjoined afterOperand (bracket.enclose tokens) := by
  have hclosing : Unjoined (operandEnds false tokens) [.symbol (.closing bracket)] :=
    .cons Token.noConfusion trivial
  exact .cons Token.noConfusion (htokens.append hclosing (.inr (by simp)))

theorem Unjoined.operator (op : BinaryOperator) {tokens : List Token}
    (htokens : Unjoined false tokens) : Unjoined true (.symbol op.symbol :: tokens) := by
  refine .cons Token.noConfusion ?_
  cases op <;> exact htokens

theorem Unjoined.relation (relation : Relation) {tokens : List Token}
    (hbegins : Begins .arithmetic tokens) (htokens : Unjoined false tokens) :
    Unjoined true (relation.tokens ++ tokens) := by
  cases relation with
  | notIn => exact ⟨fun hafter => absurd hafter.symm Bool.false_ne_true, .cons (by simp) htokens⟩
  | isNot => exact .cons (by simp) ⟨fun _ _ => hbegins.head?_ne_in, htokens⟩
  | _ => exact .cons (by simp) htokens

theorem unjoined_trailingComma (afterOperand trailing : Bool) :
    Unjoined afterOperand (trailingComma trailing) := by
  cases trailing with
  | true => exact .cons Token.noConfusion trivial
  | false => trivial

theorem Spelled.phrase_unjoined {phrase : Phrase} {tokens : List Token}
    (hspelled : Spelled phrase tokens) : phrase.Unjoined tokens := by
  induction hspelled with
  | looser _ ih => exact ih
  | junction op hfirst _ ihfirst ihothers =>
      have hends := hfirst.operates.ends
      refine ihfirst.append ?_ (.inl hends)
      rw [hends]
      cases op <;> exact ihothers (by simp [Junction.keyword]) rfl
  | not hvalue ih => exact ⟨fun _ _ => hvalue.begins.head?_ne_in, ih⟩
  | compare hleft _ ihleft ihsteps =>
      have hends := hleft.operates.ends
      exact ihleft.append (hends ▸ ihsteps) (.inl hends)
  | @sum op _ _ _ _ _ hleft _ ihleft ihright | @product op _ _ _ _ _ hleft _ ihleft ihright =>
      have hends := hleft.operates.ends
      exact ihleft.append (hends ▸ .operator op ihright) (.inl hends)
  | @sign op _ _ hop _ ih =>
      cases op with
      | not => exact absurd rfl hop
      | _ => exact .cons Token.noConfusion ih
  | power hbase _ ihbase ihexponent =>
      have hends := hbase.operates.ends
      exact ihbase.append (hends ▸ .operator .power ihexponent) (.inl hends)
  | call hfunction _ ihfunction iharguments =>
      exact ihfunction.append (.enclose .round iharguments) (.inl hfunction.operates.ends)
  | attributed field hvalue ih =>
      exact ih.append (.cons Token.noConfusion (.cons Token.noConfusion trivial))
        (.inl hvalue.operates.ends)
  | subscript hvalue _ ihvalue ihindex =>
      exact ihvalue.append (.enclose .square ihindex) (.inl hvalue.operates.ends)
  | name id => exact .cons Token.noConfusion trivial
  | constant value => cases value <;> exact .cons Token.noConfusion trivial
  | group _ ih => exact .enclose .round ih
  | tuple _ _ ih => exact .enclose .round ih
  | list _ ih => exact .enclose .square ih
  | noFollower _ _ => exact fun _ _ => trivial
  | follower hvalue _ ihvalue ihvalues =>
      intro hseparator hoperator
      have hends := hvalue.operates.ends
      refine .cons hseparator ?_
      rw [hoperator]
      exact ihvalue.append (hends ▸ ihvalues hseparator hoperator) (.inl hends)
  | noLink => trivial
  | link relation hvalue _ ihvalue ihsteps =>
      have hends := hvalue.operates.ends
      exact .relation relation (hvalue.begins.append _)
        (ihvalue.append (hends ▸ ihsteps) (.inl hends))
  | noElement trailing => exact unjoined_trailingComma false trailing
  | someElements trailing hfirst _ ihfirst ihothers =>
      have hends := hfirst.operates.ends
      have hcomma : (trailingComma trailing).head? ≠ some (.keyword .in) := by
        cases trailing <;> simp [trailingComma]
      have hothers := (ihothers Token.noConfusion rfl).append
        (unjoined_trailingComma _ trailing) (.inr hcomma)
      exact ihfirst.append (hends ▸ hothers) (.inl hends)

end RecordCondition
