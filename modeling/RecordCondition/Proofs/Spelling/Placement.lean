import RecordCondition.Proofs.Spelling.Grammar

/-!
# Operands and operators take turns

In a spelling an operand never stands directly behind another, and an operator
that has no prefix form only behind an operand.  So whether an operand has just
ended tells what the next token may be.
-/

namespace RecordCondition

def Symbol.IsInfix : Symbol → Prop
  | .dot | .star | .power | .slash | .doubleSlash | .percent
  | .equal | .notEqual | .less | .lessEqual | .greater | .greaterEqual => True
  | _ => False

/-- The token may stand where it is known whether an operand has just ended. -/
def Token.Fits (afterOperand : Bool) : Token → Prop
  | .name _ | .truth _ | .number _ | .quoted _ => afterOperand = false
  | .symbol mark => mark.IsInfix → afterOperand = true
  | .keyword _ => True
  | .stray => False

def Placed : Bool → List Token → Prop
  | _, [] => True
  | afterOperand, token :: tokens => token.Fits afterOperand ∧ Placed token.endsOperand tokens

def operandEnds : Bool → List Token → Bool
  | afterOperand, [] => afterOperand
  | _, token :: tokens => operandEnds token.endsOperand tokens

theorem operandEnds_append (afterOperand : Bool) (first second : List Token) :
    operandEnds afterOperand (first ++ second) =
      operandEnds (operandEnds afterOperand first) second := by
  induction first generalizing afterOperand with
  | nil => rfl
  | cons token tokens ih => exact ih token.endsOperand

theorem placed_append (afterOperand : Bool) (first second : List Token) :
    Placed afterOperand (first ++ second) ↔
      Placed afterOperand first ∧ Placed (operandEnds afterOperand first) second := by
  induction first generalizing afterOperand with
  | nil => simp only [List.nil_append, Placed, operandEnds, true_and]
  | cons token tokens ih =>
      simp only [List.cons_append, Placed, operandEnds, ih, and_assoc]

structure Operates (afterOperand : Bool) (tokens : List Token) : Prop where
  placed : Placed afterOperand tokens
  ends : operandEnds afterOperand tokens = true

theorem Operates.append {afterOperand : Bool} {first second : List Token}
    (hfirst : Operates afterOperand first) (hsecond : Operates true second) :
    Operates afterOperand (first ++ second) := by
  constructor
  · rw [placed_append, hfirst.ends]
    exact ⟨hfirst.placed, hsecond.placed⟩
  · rw [operandEnds_append, hfirst.ends]
    exact hsecond.ends

theorem Operates.cons {afterOperand : Bool} {token : Token} {tokens : List Token}
    (hfits : token.Fits afterOperand) (htokens : Operates token.endsOperand tokens) :
    Operates afterOperand (token :: tokens) :=
  ⟨⟨hfits, htokens.placed⟩, htokens.ends⟩

theorem Operates.nil : Operates true [] :=
  ⟨trivial, rfl⟩

theorem Operates.operator (op : BinaryOperator) {tokens : List Token}
    (htokens : Operates false tokens) :
    Operates true (.symbol op.symbol :: tokens) := by
  have hends : (Token.symbol op.symbol).endsOperand = false := by
    cases op <;> rfl
  rw [← hends] at htokens
  exact .cons (fun _ => rfl) htokens

theorem Operates.enclose {afterOperand : Bool} {tokens : List Token}
    (bracket : Bracket) (htokens : Placed false tokens) :
    Operates afterOperand (bracket.enclose tokens) := by
  apply Operates.cons
  · intro hinfix
    exact absurd hinfix id
  · constructor
    · rw [placed_append]
      exact ⟨htokens, fun hinfix => absurd hinfix id, trivial⟩
    · rw [operandEnds_append]
      rfl

theorem placed_trailingComma (afterOperand trailing : Bool) :
    Placed afterOperand (trailingComma trailing) := by
  cases trailing with
  | true => exact ⟨fun hinfix => absurd hinfix id, trivial⟩
  | false => trivial

theorem Relation.operates {relation : Relation} {tokens : List Token}
    (htokens : Operates false tokens) : Operates true (relation.tokens ++ tokens) := by
  cases relation with
  | notIn => exact .cons trivial (.cons trivial htokens)
  | isNot => exact .cons trivial (.cons trivial htokens)
  | «in» => exact .cons trivial htokens
  | is => exact .cons trivial htokens
  | _ => exact .cons (fun _ => rfl) htokens

def Phrase.Placed : Phrase → List Token → Prop
  | .expr _ _, tokens => Operates false tokens
  | .followers separator _ _, tokens =>
      separator.Fits true → separator.endsOperand = false → Operates true tokens
  | .links _, tokens => Operates true tokens
  | .elements _ _, tokens => RecordCondition.Placed false tokens

theorem Spelled.phrase_placed {phrase : Phrase} {tokens : List Token}
    (hspelled : Spelled phrase tokens) : phrase.Placed tokens := by
  induction hspelled with
  | looser _ ih => exact ih
  | junction op _ _ ihfirst ihothers => exact Operates.append ihfirst (ihothers trivial rfl)
  | not _ ih => exact Operates.cons trivial ih
  | compare _ _ ihleft ihsteps => exact Operates.append ihleft ihsteps
  | @sum op _ _ _ _ _ _ _ ihleft ihright =>
      exact Operates.append ihleft (.operator op ihright)
  | @product op _ _ _ _ _ _ _ ihleft ihright =>
      exact Operates.append ihleft (.operator op ihright)
  | @sign op _ _ hop _ ih =>
      cases op with
      | not => exact absurd rfl hop
      | _ => exact Operates.cons (fun hinfix => absurd hinfix id) ih
  | power _ _ ihbase ihexponent =>
      exact Operates.append ihbase (.operator .power ihexponent)
  | call _ _ ihfunction iharguments =>
      exact Operates.append ihfunction (.enclose .round iharguments)
  | attributed field _ ih =>
      exact Operates.append ih (.cons (fun _ => rfl) (.cons rfl .nil))
  | subscript _ _ ihvalue ihindex =>
      exact Operates.append ihvalue (.enclose .square ihindex.placed)
  | name id => exact Operates.cons rfl .nil
  | constant value => cases value <;> exact Operates.cons rfl .nil
  | group _ ih => exact .enclose .round ih.placed
  | tuple _ _ ih => exact .enclose .round ih
  | list _ ih => exact .enclose .square ih
  | noFollower _ _ =>
      intro _ _
      exact .nil
  | follower _ _ ihvalue ihvalues =>
      intro hfits hends
      apply Operates.cons hfits
      rw [hends]
      exact Operates.append ihvalue (ihvalues hfits hends)
  | noLink => exact .nil
  | link relation _ _ ihvalue ihsteps =>
      exact Relation.operates (Operates.append ihvalue ihsteps)
  | noElement trailing => exact placed_trailingComma false trailing
  | someElements trailing _ _ ihfirst ihothers =>
      have hothers := ihothers (fun hinfix => absurd hinfix id) rfl
      change RecordCondition.Placed false _
      rw [placed_append, placed_append]
      refine ⟨ihfirst.placed, ?_, placed_trailingComma _ trailing⟩
      rw [ihfirst.ends]
      exact hothers.placed

/-- A whole spelling begins where no operand has ended and leaves one behind. -/
theorem Spelled.operates {level : Level} {e : Expr} {tokens : List Token}
    (hspelled : Spelled (.expr level e) tokens) : Operates false tokens :=
  hspelled.phrase_placed

end RecordCondition
