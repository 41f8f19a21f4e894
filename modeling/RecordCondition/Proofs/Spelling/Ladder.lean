import RecordCondition.Proofs.Spelling.Edges
import RecordCondition.Proofs.Spelling.Soundness

/-!
# Reading up to where a spelling stops

What each rung of the ladder reads when the rung below it reads an operand and
nothing carries the operand on.  A rung that groups from the left, or that
applies trailers, may be entered in the middle: with a value read so far it goes
on as it would have after reading that value.
-/

namespace RecordCondition

/-! ## Operators that are not there -/

theorem relation_eq_none {tokens : List Token} (hstops : Stops .comparison tokens) :
    relation tokens = none := by
  unfold relation
  split
  all_goals
    first
    | rfl
    | exact absurd rfl (hstops.ne rfl (by decide) _)

theorem sumOperator_eq_none {tokens : List Token} (hstops : Stops .arithmetic tokens) :
    sumOperator tokens = none := by
  unfold sumOperator
  split
  all_goals
    first
    | rfl
    | exact absurd rfl (hstops.ne rfl (by decide) _)

theorem productOperator_eq_none {tokens : List Token} (hstops : Stops .term tokens) :
    productOperator tokens = none := by
  unfold productOperator
  split
  all_goals
    first
    | rfl
    | exact absurd rfl (hstops.ne rfl (by decide) _)

theorem symbol_eq_none {expected : Symbol} {tokens : List Token}
    (hne : ∀ rest, tokens ≠ .symbol expected :: rest) : symbol expected tokens = none := by
  cases hread : symbol expected tokens with
  | none => rfl
  | some result => exact absurd (symbol_eq_some_iff.mp hread) (hne result.2)

theorem keyword_eq_none {expected : Keyword} {tokens : List Token}
    (hne : ∀ rest, tokens ≠ .keyword expected :: rest) :
    keyword expected tokens = none := by
  cases hread : keyword expected tokens with
  | none => rfl
  | some result => exact absurd (keyword_eq_some_iff.mp hread) (hne result.2)

theorem Reader.step_eq_none {ο : Type} {operator : Reader ο} {tokens : List Token}
    (hread : operator tokens = none) (operand : Reader Expr) :
    Reader.step operator operand tokens = none := by
  unfold Reader.step
  rw [hread]
  rfl

/-! ## Operators that are there -/

/-- A relation is read whole, for no operand of a comparison begins with `not`. -/
theorem relation_tokens (expected : Relation) {tokens : List Token}
    (hnot : ∀ rest, tokens ≠ .keyword .not :: rest) :
    relation (expected.tokens ++ tokens) = some (expected, tokens) := by
  cases expected with
  | is =>
      change relation (.keyword .is :: tokens) = some (.is, tokens)
      cases tokens with
      | nil => rfl
      | cons token tail =>
          have hne : token ≠ .keyword .not := by
            rintro rfl
            exact hnot tail rfl
          unfold relation
          split <;> simp_all
  | _ => rfl

theorem sumOperator_symbol {op : BinaryOperator} (hsum : op.IsSum) (rest : List Token) :
    sumOperator (.symbol op.symbol :: rest) = some (op, rest) := by
  cases op <;> first | rfl | exact absurd hsum id

theorem productOperator_symbol {op : BinaryOperator} (hproduct : op.IsProduct)
    (rest : List Token) :
    productOperator (.symbol op.symbol :: rest) = some (op, rest) := by
  cases op <;> first | rfl | exact absurd hproduct id

theorem BinaryOperator.carriesOn_of_isSum {op : BinaryOperator} (hsum : op.IsSum) :
    (Token.symbol op.symbol).carriesOn = some .arithmetic := by
  cases op <;> first | rfl | exact absurd hsum id

theorem BinaryOperator.carriesOn_of_isProduct {op : BinaryOperator}
    (hproduct : op.IsProduct) :
    (Token.symbol op.symbol).carriesOn = some .term := by
  cases op <;> first | rfl | exact absurd hproduct id

/-! ## Chains -/

def extend (operator : Reader BinaryOperator) (operand : Reader Expr) (left : Expr)
    (tokens : List Token) : Expr × List Token :=
  ((Reader.many (Reader.step operator operand) tokens).1.foldl
      (fun left step => .binary step.1 left step.2) left,
    (Reader.many (Reader.step operator operand) tokens).2)

theorem leftChain_of_operand {operator : Reader BinaryOperator} {operand : Reader Expr}
    {tokens rest : List Token} {first : Expr}
    (hread : operand tokens = some (first, rest)) :
    leftChain operator operand tokens = some (extend operator operand first rest) := by
  unfold leftChain
  rw [hread]
  rfl

theorem extend_of_none {operator : Reader BinaryOperator} {operand : Reader Expr}
    {tokens : List Token} (hread : operator tokens = none) (left : Expr) :
    extend operator operand left tokens = (left, tokens) := by
  unfold extend
  rw [Reader.many_of_none (Reader.step_eq_none hread operand)]
  rfl

theorem extend_of_step {operator : Reader BinaryOperator} {operand : Reader Expr}
    {tokens middle rest : List Token} {op : BinaryOperator} {right : Expr}
    (hoperator : operator tokens = some (op, middle))
    (hoperand : operand middle = some (right, rest))
    (hshorter : rest.length < tokens.length) (left : Expr) :
    extend operator operand left tokens =
      extend operator operand (.binary op left right) rest := by
  have hstep : Reader.step operator operand tokens = some ((op, right), rest) :=
    Reader.step_eq_some_iff.mpr ⟨middle, hoperator, hoperand⟩
  unfold extend
  rw [Reader.many_of_some hstep hshorter]
  rfl

/-! ## Trailers -/

variable (inner : Reader Expr)

def trail (value : Expr) (tokens : List Token) : Expr × List Token :=
  ((Reader.many (trailer inner) tokens).1.foldl Trailer.apply value,
    (Reader.many (trailer inner) tokens).2)

theorem postfixed_of_atom {tokens rest : List Token} {value : Expr}
    (hread : atom inner tokens = some (value, rest)) :
    postfixed inner tokens = some (trail inner value rest) := by
  unfold postfixed
  rw [hread]
  rfl

theorem trail_of_trailer {tokens rest : List Token} {found : Trailer}
    (hread : trailer inner tokens = some (found, rest))
    (hshorter : rest.length < tokens.length) (value : Expr) :
    trail inner value tokens = trail inner (found.apply value) rest := by
  unfold trail
  rw [Reader.many_of_some hread hshorter]
  rfl

theorem enclosed_of_elements {bracket : Bracket} {tokens rest : List Token}
    {contents : List Expr × Bool}
    (hread : elements inner (tokens ++ .symbol (.closing bracket) :: rest) =
      (contents, .symbol (.closing bracket) :: rest)) :
    enclosed inner bracket (bracket.enclose tokens ++ rest) = some (contents, rest) := by
  unfold enclosed Bracket.enclose
  simp only [List.cons_append, List.append_assoc, List.nil_append]
  rw [symbol_eq_some_iff.mpr rfl]
  simp only [Option.bind_eq_bind, Option.bind_some, hread]
  rw [symbol_eq_some_iff.mpr rfl]
  rfl

theorem enclosed_eq_none {bracket : Bracket} {tokens : List Token}
    (hne : ∀ rest, tokens ≠ .symbol (.opening bracket) :: rest) :
    enclosed inner bracket tokens = none := by
  unfold enclosed
  rw [symbol_eq_none hne]
  rfl

theorem trailer_eq_none {tokens : List Token} (hstops : Stops .postfixed tokens) :
    trailer inner tokens = none := by
  have hround : enclosed inner .round tokens = none := by
    apply enclosed_eq_none
    intro rest
    exact hstops.ne rfl (by decide) rest
  unfold trailer
  split
  · exact absurd rfl (hstops.ne rfl (by decide) _)
  · exact absurd rfl (hstops.ne rfl (by decide) _)
  · rw [hround]
    rfl

theorem trail_of_stops {tokens : List Token} (hstops : Stops .postfixed tokens)
    (value : Expr) : trail inner value tokens = (value, tokens) := by
  unfold trail
  rw [Reader.many_of_none (trailer_eq_none inner hstops)]
  rfl

theorem trailer_call {tokens rest : List Token} {contents : List Expr × Bool}
    (hread : elements inner (tokens ++ .symbol (.closing .round) :: rest) =
      (contents, .symbol (.closing .round) :: rest)) :
    trailer inner (Bracket.round.enclose tokens ++ rest) =
      some (.call contents.1, rest) := by
  have henclosed := enclosed_of_elements inner hread
  unfold Bracket.enclose at henclosed ⊢
  simp only [List.cons_append] at henclosed ⊢
  rw [trailer, henclosed]
  · rfl
  · intro field after heq
    simp at heq
  · intro after heq
    simp at heq

theorem trailer_subscript {tokens rest : List Token} {index : Expr}
    (hread : inner (tokens ++ .symbol (.closing .square) :: rest) =
      some (index, .symbol (.closing .square) :: rest)) :
    trailer inner (Bracket.square.enclose tokens ++ rest) =
      some (.subscript index, rest) := by
  unfold Bracket.enclose
  simp only [List.cons_append, List.append_assoc, List.nil_append]
  unfold trailer
  simp only [hread, Option.bind_eq_bind, Option.bind_some]
  rw [symbol_eq_some_iff.mpr rfl]
  rfl

theorem atom_round {tokens rest : List Token} {contents : List Expr × Bool}
    (hread : elements inner (tokens ++ .symbol (.closing .round) :: rest) =
      (contents, .symbol (.closing .round) :: rest)) :
    atom inner (Bracket.round.enclose tokens ++ rest) =
      some (.ofRound contents, rest) := by
  have henclosed := enclosed_of_elements inner hread
  unfold Bracket.enclose at henclosed ⊢
  simp only [List.cons_append] at henclosed ⊢
  rw [atom, henclosed]
  all_goals
    intro _ _ heq
    simp at heq

theorem atom_square {tokens rest : List Token} {contents : List Expr × Bool}
    (hread : elements inner (tokens ++ .symbol (.closing .square) :: rest) =
      (contents, .symbol (.closing .square) :: rest)) :
    atom inner (Bracket.square.enclose tokens ++ rest) =
      some (.list contents.1, rest) := by
  have henclosed := enclosed_of_elements inner hread
  have hround : enclosed inner .round (Bracket.square.enclose tokens ++ rest) = none := by
    apply enclosed_eq_none
    intro after heq
    simp [Bracket.enclose] at heq
  unfold Bracket.enclose at henclosed hround ⊢
  simp only [List.cons_append] at henclosed hround ⊢
  rw [atom, hround, henclosed]
  · rfl
  all_goals
    intro _ _ heq
    simp at heq

end RecordCondition
