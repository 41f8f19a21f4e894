import RecordCondition.Proofs.Expr.Equality
import RecordCondition.Proofs.Grammar.Alignment
import RecordCondition.Proofs.Spelling.RoundTrip
import RecordCondition.Proofs.Spelling.Verbatim

/-!
# What is read is well-formed

Every token of a text that is read stands there as it may be written, for stray text
belongs to no spelling.  So the expression is well-formed, its numbers stand in the
text as they are, its comparisons line up, and writing it out and reading that gives
it back.
-/

namespace RecordCondition

/-! ## Numbers -/

mutual

/-- The numbers of an expression, from left to right. -/
def Expr.numbers : Expr → List String
  | .junction _ values => Expr.numbersAll values
  | .compare left _ operands => left.numbers ++ Expr.numbersAll operands
  | .constant (.number digits) => [digits]
  | .name _ | .constant _ => []
  | .prefixed _ operand => operand.numbers
  | .binary _ left right => left.numbers ++ right.numbers
  | .call function arguments => function.numbers ++ Expr.numbersAll arguments
  | .attribute value _ => value.numbers
  | .subscript value index => value.numbers ++ index.numbers
  | .list elements | .tuple elements => Expr.numbersAll elements

def Expr.numbersAll : List Expr → List String
  | [] => []
  | value :: values => value.numbers ++ Expr.numbersAll values

end

/-- The numbers are among the tokens, in the same order. -/
def Counted (numbers : List String) (tokens : List Token) : Prop :=
  (numbers.map Token.number).Sublist tokens

theorem Counted.nil (tokens : List Token) : Counted [] tokens :=
  List.nil_sublist tokens

theorem Counted.append {before behind : List String} {tokens following : List Token}
    (hbefore : Counted before tokens) (hbehind : Counted behind following) :
    Counted (before ++ behind) (tokens ++ following) := by
  unfold Counted
  rw [List.map_append]
  exact List.Sublist.append hbefore hbehind

theorem Counted.cons {numbers : List String} {tokens : List Token}
    (hcounted : Counted numbers tokens) (token : Token) : Counted numbers (token :: tokens) :=
  List.Sublist.cons token hcounted

theorem Counted.append_right {numbers : List String} {tokens : List Token}
    (hcounted : Counted numbers tokens) (following : List Token) :
    Counted numbers (tokens ++ following) :=
  List.Sublist.trans hcounted (List.sublist_append_left tokens following)

theorem Counted.append_left {numbers : List String} {tokens : List Token}
    (hcounted : Counted numbers tokens) (before : List Token) :
    Counted numbers (before ++ tokens) :=
  List.Sublist.trans hcounted (List.sublist_append_right before tokens)

theorem Counted.enclose {numbers : List String} {tokens : List Token}
    (hcounted : Counted numbers tokens) (bracket : Bracket) :
    Counted numbers (bracket.enclose tokens) :=
  (hcounted.append_right _).cons _

def Phrase.numbers : Phrase → List String
  | .expr _ e => e.numbers
  | .followers _ _ values => Expr.numbersAll values
  | .links steps => Expr.numbersAll (steps.map Prod.snd)
  | .elements values _ => Expr.numbersAll values

theorem Spelled.counted {phrase : Phrase} {tokens : List Token}
    (hspelled : Spelled phrase tokens) : Counted phrase.numbers tokens := by
  induction hspelled with
  | looser _ ih => exact ih
  | junction op _ _ ihfirst ihothers => exact ihfirst.append ihothers
  | not _ ih => exact ih.cons _
  | compare _ _ ihleft ihsteps => exact ihleft.append ihsteps
  | sum _ _ _ ihleft ihright => exact ihleft.append (ihright.cons _)
  | product _ _ _ ihleft ihright => exact ihleft.append (ihright.cons _)
  | sign _ _ ih => exact ih.cons _
  | power _ _ ihbase ihexponent => exact ihbase.append (ihexponent.cons _)
  | call _ _ ihfunction iharguments => exact ihfunction.append (iharguments.enclose _)
  | attributed _ _ ih => exact ih.append_right _
  | subscript _ _ ihvalue ihindex => exact ihvalue.append (ihindex.enclose _)
  | name _ => exact .nil _
  | constant value =>
      cases value with
      | number digits => exact List.Sublist.refl _
      | _ => exact .nil _
  | group _ ih => exact ih.enclose _
  | tuple _ _ ih => exact ih.enclose _
  | list _ ih => exact ih.enclose _
  | noFollower _ _ => exact .nil _
  | follower _ _ ihvalue ihvalues => exact (ihvalue.append ihvalues).cons _
  | noLink => exact .nil _
  | link relation _ _ ihvalue ihsteps => exact (ihvalue.append ihsteps).append_left _
  | noElement _ => exact .nil _
  | someElements _ _ _ ihfirst ihothers => exact ihfirst.append (ihothers.append_right _)

/-! ## Texts that are read -/

theorem Placed.ne_stray {afterOperand : Bool} {tokens : List Token}
    (hplaced : Placed afterOperand tokens) : ∀ token ∈ tokens, token ≠ .stray := by
  induction tokens generalizing afterOperand with
  | nil => exact fun _ hmem => absurd hmem List.not_mem_nil
  | cons token tokens ih =>
      rw [List.forall_mem_cons]
      refine ⟨?_, ih hplaced.2⟩
      rintro rfl
      exact hplaced.1

namespace Expr

/-- Every token of a text that is read is written somewhere in it. -/
theorem exists_written_of_parse {text : String} {e : Expr} (hparse : Expr.parse text = .ok e) :
    ∀ token ∈ (lex text).map Lexeme.token,
      ∃ written, token.Written written ∧ written <:+: text.toList := by
  intro token htoken
  have hstray := (spelled_of_parse hparse).operates.placed.ne_stray token htoken
  obtain ⟨lexeme, hmem, rfl⟩ := List.mem_map.mp htoken
  obtain ⟨written, hwritten, hfront, hend⟩ := written_of_mem_lexAfter hmem hstray
  exact ⟨written, hwritten, hfront.isInfix.trans hend.isInfix⟩

/-- The expression that a text is read as is well-formed, and its numbers stand in the
text as they are.  No visitor of it is ever told of a comparison whose relations and
operands do not line up.  Its canonical text is read as the same expression. -/
theorem wellFormed_of_parse {text : String} {e : Expr} (hparse : Expr.parse text = .ok e) :
    e.WellFormed ∧
    (∀ digits ∈ e.numbers, IsNumber digits.toList ∧ digits.toList <:+: text.toList) ∧
    (∀ (σ ε α : Type) (visitor other : Visitor σ ε α), visitor.AgreeOnAligned other →
      ∀ state, visitor.walk e state = other.walk e state) ∧
    Expr.parse e.canonical = .ok e := by
  have hspelled := spelled_of_parse hparse
  have hwritten := exists_written_of_parse hparse
  have hwellFormed : e.WellFormed := by
    apply hspelled.phrase_wellFormed
    intro token htoken
    obtain ⟨written, htoken, -⟩ := hwritten token htoken
    exact ⟨written, htoken⟩
  refine ⟨hwellFormed, ?_, ?_, parse_of_writtenAs hwellFormed.writtenAs_canonical⟩
  · intro digits hdigits
    have htoken := hspelled.counted.subset (List.mem_map_of_mem hdigits)
    obtain ⟨written, ⟨rfl, hnumber⟩, hplace⟩ := hwritten _ htoken
    exact ⟨hnumber, hplace⟩
  · intro σ ε α visitor other hagree state
    exact Visitor.walk_eq_of_agreeOnAligned hagree hwellFormed state

theorem parse_attributeChain :
    Expr.parse "a.b<-1.5e3<=2or NOT(c)" =
      .ok (.junction .or
        [.compare (.attribute (.name "a") "b") [.less, .lessEqual]
          [.constant (.number "-1.5e3"), .constant (.number "2")],
          .prefixed .not (.name "c")]) := by
  decide +kernel

/-- A chain with a signed number, and no blanks where they are not needed. -/
theorem wellFormed_of_parse_attributeChain :
    let text := "a.b<-1.5e3<=2or NOT(c)"
    ∃ e, Expr.parse text = .ok e ∧ e.WellFormed ∧ e.numbers = ["-1.5e3", "2"] ∧
      "-1.5e3".toList <:+: text.toList ∧ e.canonical = "a . b < -1.5e3 <= 2 or not c" ∧
      Expr.parse e.canonical = .ok e := by
  intro text
  obtain ⟨hwellFormed, hnumbers, -, hcanonical⟩ := wellFormed_of_parse parse_attributeChain
  exact ⟨_, parse_attributeChain, hwellFormed, rfl, (hnumbers "-1.5e3" (by decide)).2, by decide,
    hcanonical⟩

end Expr

end RecordCondition
