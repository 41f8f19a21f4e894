import Mathlib.Algebra.GroupWithZero.Nat
import RecordCondition.Proofs.Spelling.Edges

/-!
# The depth that a spelling has

Each bracket is a level, and so is each prefix operator and each power, until an
operator that binds more loosely ends the run of them at that level of brackets.
A sign or a power is ended by any operator between operands, but `not` only by
`and`, `or` and a comma, which alone bind more loosely than it does.  Counted in
this way over the tokens of a spelling, the levels reach the depth of the
expression that is spelled.
-/

namespace RecordCondition

/-! ## The depth of an expression -/

mutual

/-- The most recursive edges on a path from the root to a leaf: into the operand
of a prefix operator, into an exponent, and into an argument, an index or an
element. -/
def Expr.depth : Expr → Nat
  | .junction _ values => Expr.depthOfAll values
  | .compare left _ operands => max left.depth (Expr.depthOfAll operands)
  | .name _ => 0
  | .constant _ => 0
  | .prefixed _ operand => operand.depth + 1
  | .binary op left right =>
      max left.depth (if op = .power then right.depth + 1 else right.depth)
  | .call function arguments => max function.depth (Expr.depthInside arguments)
  | .attribute value _ => value.depth
  | .subscript value index => max value.depth (index.depth + 1)
  | .list elements => Expr.depthInside elements
  | .tuple elements => Expr.depthInside elements

def Expr.depthOfAll : List Expr → Nat
  | [] => 0
  | value :: values => max value.depth (Expr.depthOfAll values)

def Expr.depthInside : List Expr → Nat
  | [] => 0
  | value :: values => max (value.depth + 1) (Expr.depthInside values)

end

theorem Expr.depthInside_le (values : List Expr) :
    Expr.depthInside values ≤ Expr.depthOfAll values + 1 := by
  induction values with
  | nil => exact Nat.zero_le _
  | cons value values ih =>
      rw [Expr.depthInside, Expr.depthOfAll]
      omega

/-! ## Counting over tokens -/

/-- `outer` holds the prefixes suspended by the open brackets, innermost first:
how many times `not`, and how many signs and powers. -/
structure Tally where
  outer : List (Nat × Nat) := []
  negations : Nat := 0
  run : Nat := 0
  afterOperand : Bool := false
  afterIs : Bool := false

namespace Tally

def outerLevel (tally : Tally) : Nat :=
  (tally.outer.map fun suspended => suspended.1 + suspended.2 + 1).sum

def level (tally : Tally) : Nat :=
  tally.outerLevel + tally.negations + tally.run

def operand (tally : Tally) : Tally :=
  { tally with afterOperand := true, afterIs := false }

/-- An operator that binds more loosely than signs, but no more than `not`. -/
def interrupt (tally : Tally) : Tally :=
  { tally with run := 0, afterOperand := false, afterIs := false }

def separate (tally : Tally) : Tally :=
  { outer := tally.outer }

def prefixed (tally : Tally) : Tally :=
  { tally with run := tally.run + 1, afterIs := false }

def enter (tally : Tally) : Tally :=
  { outer := (tally.negations, tally.run) :: tally.outer }

def leave (tally : Tally) : Tally :=
  match tally.outer with
  | [] => tally.operand
  | (negations, run) :: outer =>
      { outer := outer, negations := negations, run := run, afterOperand := true }

def take (tally : Tally) : Token → Tally
  | .name _ | .truth _ | .number _ | .quoted _ => tally.operand
  | .keyword .and | .keyword .or | .symbol .comma => tally.separate
  | .keyword .in => tally.interrupt
  | .keyword .is => { tally.interrupt with afterIs := true }
  | .keyword .not =>
      if tally.afterOperand then tally.interrupt
      else if tally.afterIs then { tally with afterIs := false }
      else { tally with negations := tally.negations + 1 }
  | .symbol (.opening _) => tally.enter
  | .symbol (.closing _) => tally.leave
  | .symbol .plus | .symbol .minus =>
      if tally.afterOperand then tally.interrupt else tally.prefixed
  | .symbol .tilde => tally.prefixed
  | .symbol .power => { tally with run := tally.run + 1, afterOperand := false, afterIs := false }
  | .symbol .dot => { tally with afterIs := false }
  | .symbol _ => tally.interrupt
  | .stray => tally

def takeAll (tally : Tally) (tokens : List Token) : Tally :=
  tokens.foldl take tally

/-- The greatest level at the front of the tokens or behind one of them. -/
def deepest (tally : Tally) : List Token → Nat
  | [] => tally.level
  | token :: tokens => max tally.level ((tally.take token).deepest tokens)

@[simp] theorem takeAll_nil (tally : Tally) : tally.takeAll [] = tally := rfl

@[simp] theorem takeAll_cons (tally : Tally) (token : Token) (tokens : List Token) :
    tally.takeAll (token :: tokens) = (tally.take token).takeAll tokens := rfl

@[simp] theorem takeAll_append (tally : Tally) (first second : List Token) :
    tally.takeAll (first ++ second) = (tally.takeAll first).takeAll second :=
  List.foldl_append

theorem level_le_deepest (tally : Tally) (tokens : List Token) :
    tally.level ≤ tally.deepest tokens := by
  cases tokens with
  | nil => exact Nat.le_refl _
  | cons token tokens => exact Nat.le_max_left _ _

theorem deepest_take_le (tally : Tally) (token : Token) (tokens : List Token) :
    (tally.take token).deepest tokens ≤ tally.deepest (token :: tokens) :=
  Nat.le_max_right _ _

theorem deepest_append (tally : Tally) (first second : List Token) :
    tally.deepest (first ++ second) =
      max (tally.deepest first) ((tally.takeAll first).deepest second) := by
  induction first generalizing tally with
  | nil =>
      have hlevel := tally.level_le_deepest second
      rw [List.nil_append, takeAll_nil, deepest]
      omega
  | cons token tokens ih =>
      rw [List.cons_append, deepest, deepest, takeAll_cons, ih, Nat.max_assoc]

end Tally

end RecordCondition
