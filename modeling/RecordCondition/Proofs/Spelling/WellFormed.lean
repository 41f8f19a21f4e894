import RecordCondition.Proofs.Spelling.Layout

/-!
# Well-formed expressions

The junctions of what is written have two values at least, its comparisons as many
relations as operands and at least one, and its names and numbers are such.
-/

namespace RecordCondition

inductive Expr.WellFormed : Expr → Prop
  | junction {op : Junction} {values : List Expr} :
      2 ≤ values.length → (∀ value ∈ values, WellFormed value) →
      WellFormed (.junction op values)
  | compare {left : Expr} {relations : List Relation} {operands : List Expr} :
      relations ≠ [] → relations.length = operands.length → WellFormed left →
      (∀ operand ∈ operands, WellFormed operand) →
      WellFormed (.compare left relations operands)
  | name {id : String} : IsName id.toList → WellFormed (.name id)
  | text (value : String) : WellFormed (.constant (.text value))
  | number {digits : String} : IsNumber digits.toList → WellFormed (.constant (.number digits))
  | truth (value : Bool) : WellFormed (.constant (.truth value))
  | prefixed (op : PrefixOperator) {operand : Expr} :
      WellFormed operand → WellFormed (.prefixed op operand)
  | binary (op : BinaryOperator) {left right : Expr} :
      WellFormed left → WellFormed right → WellFormed (.binary op left right)
  | call {function : Expr} {arguments : List Expr} :
      WellFormed function → (∀ argument ∈ arguments, WellFormed argument) →
      WellFormed (.call function arguments)
  | attributed {value : Expr} {field : String} :
      WellFormed value → IsName field.toList → WellFormed (.attribute value field)
  | subscript {value index : Expr} :
      WellFormed value → WellFormed index → WellFormed (.subscript value index)
  | list {elements : List Expr} :
      (∀ element ∈ elements, WellFormed element) → WellFormed (.list elements)
  | tuple {elements : List Expr} :
      (∀ element ∈ elements, WellFormed element) → WellFormed (.tuple elements)

def Token.Writable (token : Token) : Prop :=
  ∃ cs, token.Written cs

theorem Layout.writable {afterOperand : Bool} {tokens : List Token} {cs : List Char}
    (hlayout : Layout afterOperand tokens cs) : ∀ token ∈ tokens, token.Writable := by
  induction hlayout with
  | nil _ => exact fun _ hmem => absurd hmem List.not_mem_nil
  | blank _ _ ih => exact ih
  | token hwritten _ _ ih =>
      rw [List.forall_mem_cons]
      exact ⟨⟨_, hwritten⟩, ih⟩

theorem Token.isName_of_writable {id : String} (hwritable : (Token.name id).Writable) :
    IsName id.toList := by
  obtain ⟨cs, rfl, hname⟩ := hwritable
  exact hname

theorem Literal.wellFormed_of_writable {value : Literal}
    (hwritable : value.token.Writable) : Expr.WellFormed (.constant value) := by
  cases value with
  | text value => exact .text value
  | truth value => exact .truth value
  | number digits =>
      obtain ⟨cs, rfl, hnumber⟩ := hwritable
      exact .number hnumber

def Phrase.WellFormed : Phrase → Prop
  | .expr _ e => e.WellFormed
  | .followers _ _ values => ∀ value ∈ values, value.WellFormed
  | .links steps => ∀ value ∈ steps.map Prod.snd, value.WellFormed
  | .elements values _ => ∀ value ∈ values, value.WellFormed

theorem Token.writable_symbol (mark : Symbol) : (Token.symbol mark).Writable :=
  ⟨mark.text.toList, rfl⟩

theorem Bracket.writable_enclose_iff (bracket : Bracket) (tokens : List Token) :
    (∀ token ∈ bracket.enclose tokens, token.Writable) ↔
      ∀ token ∈ tokens, token.Writable := by
  unfold Bracket.enclose
  rw [List.forall_mem_cons, List.forall_mem_append, List.forall_mem_singleton]
  exact ⟨fun hall => hall.2.1,
    fun hall => ⟨Token.writable_symbol _, hall, Token.writable_symbol _⟩⟩

theorem Spelled.phrase_wellFormed {phrase : Phrase} {tokens : List Token}
    (hspelled : Spelled phrase tokens)
    (hwritable : ∀ token ∈ tokens, token.Writable) : phrase.WellFormed := by
  induction hspelled with
  | looser _ ih => exact ih hwritable
  | junction op _ _ ihfirst ihothers =>
      rw [List.forall_mem_append] at hwritable
      have hfirst := ihfirst hwritable.1
      have hothers := ihothers hwritable.2
      exact .junction (by simp) (List.forall_mem_cons.mpr ⟨hfirst, hothers⟩)
  | not _ ih =>
      rw [List.forall_mem_cons] at hwritable
      exact .prefixed .not (ih hwritable.2)
  | compare _ _ ihleft ihsteps =>
      rw [List.forall_mem_append] at hwritable
      exact .compare (by simp) (by simp) (ihleft hwritable.1) (ihsteps hwritable.2)
  | sum _ _ _ ihleft ihright =>
      rw [List.forall_mem_append, List.forall_mem_cons] at hwritable
      exact .binary _ (ihleft hwritable.1) (ihright hwritable.2.2)
  | product _ _ _ ihleft ihright =>
      rw [List.forall_mem_append, List.forall_mem_cons] at hwritable
      exact .binary _ (ihleft hwritable.1) (ihright hwritable.2.2)
  | sign _ _ ih =>
      rw [List.forall_mem_cons] at hwritable
      exact .prefixed _ (ih hwritable.2)
  | power _ _ ihbase ihexponent =>
      rw [List.forall_mem_append, List.forall_mem_cons] at hwritable
      exact .binary _ (ihbase hwritable.1) (ihexponent hwritable.2.2)
  | call _ _ ihfunction iharguments =>
      rw [List.forall_mem_append] at hwritable
      exact .call (ihfunction hwritable.1)
        (iharguments ((Bracket.writable_enclose_iff _ _).mp hwritable.2))
  | attributed field _ ih =>
      rw [List.forall_mem_append, List.forall_mem_cons, List.forall_mem_cons] at hwritable
      exact .attributed (ih hwritable.1) (Token.isName_of_writable hwritable.2.2.1)
  | subscript _ _ ihvalue ihindex =>
      rw [List.forall_mem_append] at hwritable
      exact .subscript (ihvalue hwritable.1)
        (ihindex ((Bracket.writable_enclose_iff _ _).mp hwritable.2))
  | name id =>
      exact .name (Token.isName_of_writable (hwritable _ List.mem_cons_self))
  | constant value =>
      exact Literal.wellFormed_of_writable (hwritable _ List.mem_cons_self)
  | group _ ih => exact ih ((Bracket.writable_enclose_iff _ _).mp hwritable)
  | tuple _ _ ih => exact .tuple (ih ((Bracket.writable_enclose_iff _ _).mp hwritable))
  | list _ ih => exact .list (ih ((Bracket.writable_enclose_iff _ _).mp hwritable))
  | noFollower _ _ => exact fun _ hmem => absurd hmem List.not_mem_nil
  | follower _ _ ihvalue ihvalues =>
      rw [List.forall_mem_cons, List.forall_mem_append] at hwritable
      exact List.forall_mem_cons.mpr ⟨ihvalue hwritable.2.1, ihvalues hwritable.2.2⟩
  | noLink => exact fun _ hmem => absurd hmem List.not_mem_nil
  | link relation _ _ ihvalue ihsteps =>
      rw [List.forall_mem_append, List.forall_mem_append] at hwritable
      exact List.forall_mem_cons.mpr ⟨ihvalue hwritable.2.1, ihsteps hwritable.2.2⟩
  | noElement _ => exact fun _ hmem => absurd hmem List.not_mem_nil
  | someElements _ _ _ ihfirst ihothers =>
      rw [List.forall_mem_append, List.forall_mem_append] at hwritable
      exact List.forall_mem_cons.mpr ⟨ihfirst hwritable.1, ihothers hwritable.2.1⟩

end RecordCondition
