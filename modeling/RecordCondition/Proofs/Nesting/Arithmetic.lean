import RecordCondition.Proofs.Nesting.Shortfall

/-!
# The arithmetic of the count

What is held is the sum of the runs that the open brackets have suspended, at every
place of every text, whether or not its brackets are balanced.  So a closing bracket
never takes off more than is held.  Every piece takes a character and raises the level
by one at most, so the level never exceeds the number of characters taken, and numbers
that reach as far as the length of the text are large enough for the whole count.
-/

namespace RecordCondition

/-! ## One piece -/

theorem suffix_skipQuotation (quote : Char) (cs : List Char) :
    skipQuotation quote cs <:+ cs := by
  fun_induction skipQuotation quote cs with
  | case1 => exact List.suffix_refl _
  | case2 => exact List.nil_suffix
  | case3 c rest ih => exact ih.trans ((List.suffix_cons c rest).trans (List.suffix_cons _ _))
  | case4 rest _ => exact List.suffix_cons _ _
  | case5 c rest _ _ _ ih => exact ih.trans (List.suffix_cons c rest)

/-- A piece takes its first character and some of the characters behind it. -/
theorem Piece.suffix_of_read (c : Char) (rest : List Char) :
    (Piece.read c rest).2 <:+ rest := by
  unfold Piece.read
  split
  all_goals
    first
    | exact suffix_skipQuotation _ _
    | exact List.suffix_refl _
    | exact List.suffix_cons _ _
    | split
      · exact List.dropWhile_suffix _
      · exact List.suffix_refl _

namespace Nesting

def HoldsSuspended (nesting : Nesting) : Prop :=
  nesting.held = nesting.outer.sum

theorem HoldsSuspended.le_held {nesting : Nesting} (hholds : nesting.HoldsSuspended)
    {suspended : Nat} {outer : List Nat} (houter : nesting.outer = suspended :: outer) :
    suspended ≤ nesting.held := by
  rw [hholds, houter, List.sum_cons]
  exact Nat.le_add_right _ _

/-- A word ends the run, makes it longer or is an operand. -/
theorem word_cases (nesting : Nesting) (text : List Char) :
    nesting.word text = nesting.interrupt ∨
      nesting.word text = { nesting with run := nesting.run + 1 } ∨
      nesting.word text = { nesting with afterOperand := true } := by
  unfold Nesting.word
  split
  · split
    · exact Or.inl rfl
    · exact Or.inr (Or.inl rfl)
  all_goals
    first
    | exact Or.inl rfl
    | exact Or.inr (Or.inr rfl)

/-- Away from brackets nothing is suspended, and the run ends, goes on as it is or
becomes longer by one. -/
theorem take_cases (nesting : Nesting) (piece : Piece) :
    piece = .opening ∨ piece = .closing ∨
      (nesting.take piece).outer = nesting.outer ∧
        (nesting.take piece).held = nesting.held ∧
        (nesting.take piece).run ≤ nesting.run + 1 := by
  have hinterrupt : nesting.interrupt.run ≤ nesting.run + 1 := Nat.zero_le _
  cases piece with
  | opening => exact Or.inl rfl
  | closing => exact Or.inr (Or.inl rfl)
  | sign =>
      rw [take]
      split
      · exact Or.inr (Or.inr ⟨rfl, rfl, hinterrupt⟩)
      · exact Or.inr (Or.inr ⟨rfl, rfl, Nat.le_refl _⟩)
  | word text =>
      rw [take]
      rcases nesting.word_cases text with hword | hword | hword <;> rw [hword]
      · exact Or.inr (Or.inr ⟨rfl, rfl, hinterrupt⟩)
      · exact Or.inr (Or.inr ⟨rfl, rfl, Nat.le_refl _⟩)
      · exact Or.inr (Or.inr ⟨rfl, rfl, Nat.le_succ _⟩)
  | loose => exact Or.inr (Or.inr ⟨rfl, rfl, hinterrupt⟩)
  | tilde => exact Or.inr (Or.inr ⟨rfl, rfl, Nat.le_refl _⟩)
  | power => exact Or.inr (Or.inr ⟨rfl, rfl, Nat.le_refl _⟩)
  | quotation => exact Or.inr (Or.inr ⟨rfl, rfl, Nat.le_succ _⟩)
  | other => exact Or.inr (Or.inr ⟨rfl, rfl, Nat.le_succ _⟩)

theorem take_closing_of_nil {nesting : Nesting} (houter : nesting.outer = []) :
    nesting.take .closing = { nesting with afterOperand := true } := by
  rw [take, houter]

theorem take_closing_of_cons {nesting : Nesting} {suspended : Nat} {outer : List Nat}
    (houter : nesting.outer = suspended :: outer) :
    nesting.take .closing =
      { nesting with
        outer := outer
        held := nesting.held - suspended
        run := suspended
        afterOperand := true } := by
  rw [take, houter]

theorem HoldsSuspended.take {nesting : Nesting} (hholds : nesting.HoldsSuspended)
    (piece : Piece) : (nesting.take piece).HoldsSuspended := by
  rcases nesting.take_cases piece with rfl | rfl | ⟨houter, hheld, -⟩
  · change nesting.held + nesting.run = (nesting.run :: nesting.outer).sum
    rw [hholds, List.sum_cons, Nat.add_comm]
  · cases houter : nesting.outer with
    | nil =>
        rw [take_closing_of_nil houter]
        exact hholds
    | cons suspended outer =>
        rw [take_closing_of_cons houter]
        change nesting.held - suspended = outer.sum
        rw [hholds, houter, List.sum_cons, Nat.add_sub_cancel_left]
  · unfold HoldsSuspended
    rw [houter, hheld]
    exact hholds

theorem HoldsSuspended.step {nesting : Nesting} (hholds : nesting.HoldsSuspended)
    (piece : Piece) : (nesting.step piece).HoldsSuspended :=
  hholds.take piece

/-- A bracket turns the run into a level and what is held, and a closing one turns back
the innermost of them. -/
theorem HoldsSuspended.level_take_le {nesting : Nesting} (hholds : nesting.HoldsSuspended)
    (piece : Piece) : (nesting.take piece).level ≤ nesting.level + 1 := by
  rcases nesting.take_cases piece with rfl | rfl | ⟨houter, hheld, hrun⟩
  · simp only [level, Nesting.take, List.length_cons]
    omega
  · cases houter : nesting.outer with
    | nil =>
        rw [take_closing_of_nil houter]
        exact Nat.le_succ _
    | cons suspended outer =>
        have hle := hholds.le_held houter
        rw [take_closing_of_cons houter]
        simp only [level, houter, List.length_cons]
        omega
  · unfold level
    rw [houter, hheld]
    omega

@[simp] theorem level_step (nesting : Nesting) (piece : Piece) :
    (nesting.step piece).level = (nesting.take piece).level := rfl

theorem deepest_step (nesting : Nesting) (piece : Piece) :
    (nesting.step piece).deepest = max nesting.deepest (nesting.take piece).level := by
  rw [← nesting.deepest_take piece]
  rfl

end Nesting

/-! ## The states of a count -/

/-- The states that the count of a text passes through, each with the characters that
are not yet taken. -/
inductive Counting (cs : List Char) : List Char → Nesting → Prop
  | start : Counting cs cs {}
  | piece {c : Char} {rest : List Char} {nesting : Nesting} :
      Counting cs (c :: rest) nesting →
      Counting cs (Piece.read c rest).2 (nesting.step (Piece.read c rest).1)

namespace Counting

variable {cs rest : List Char} {nesting : Nesting}

theorem holdsSuspended (hcounting : Counting cs rest nesting) : nesting.HoldsSuspended := by
  induction hcounting with
  | start => rfl
  | piece _ ih => exact ih.step _

theorem level_add_length_le (hcounting : Counting cs rest nesting) :
    nesting.level + rest.length ≤ cs.length := by
  induction hcounting with
  | start => exact Nat.le_of_eq (Nat.zero_add _)
  | @piece c rest nesting hbefore ih =>
      have hlevel := hbefore.holdsSuspended.level_take_le (Piece.read c rest).1
      have hlength := Piece.read_length c rest
      rw [List.length_cons] at ih
      rw [Nesting.level_step]
      omega

theorem deepest_add_length_le (hcounting : Counting cs rest nesting) :
    nesting.deepest + rest.length ≤ cs.length := by
  induction hcounting with
  | start => exact Nat.le_of_eq (Nat.zero_add _)
  | @piece c rest nesting hbefore ih =>
      have hlevel := hbefore.piece.level_add_length_le
      have hlength := Piece.read_length c rest
      rw [List.length_cons] at ih
      rw [Nesting.level_step] at hlevel
      rw [Nesting.deepest_step]
      omega

/-- Every count comes to the end of its text. -/
theorem finish (hcounting : Counting cs rest nesting) :
    Counting cs [] ((pieces rest).foldl Nesting.step nesting) := by
  induction rest using pieces.induct generalizing nesting with
  | case1 =>
      rw [pieces]
      exact hcounting
  | case2 c rest ih =>
      rw [pieces]
      exact ih hcounting.piece

end Counting

/-! ## Bounded numbers -/

/-- The sum of two numbers, unless it is beyond the largest one. -/
def sumWithin (largest first second : Nat) : Option Nat :=
  if first + second ≤ largest then some (first + second) else none

/-- The difference of two numbers, unless it is below zero. -/
def difference? (first second : Nat) : Option Nat :=
  if second ≤ first then some (first - second) else none

theorem sumWithin_eq_some {largest first second : Nat} (hle : first + second ≤ largest) :
    sumWithin largest first second = some (first + second) :=
  if_pos hle

theorem difference?_eq_some {first second : Nat} (hle : second ≤ first) :
    difference? first second = some (first - second) :=
  if_pos hle

namespace Nesting

variable (largest : Nat)

def lengthenWithin (nesting : Nesting) : Option Nesting := do
  let run ← sumWithin largest nesting.run 1
  some { nesting with run := run }

def wordWithin (nesting : Nesting) (text : List Char) : Option Nesting :=
  match String.ofList (text.map Char.toLower) with
  | "not" =>
      if nesting.afterOperand then some nesting.interrupt
      else nesting.lengthenWithin largest
  | "and" | "or" | "in" | "is" => some nesting.interrupt
  | _ => some { nesting with afterOperand := true }

/-- The state after a piece, where each sum and each difference has to be within the
bounds. -/
def takeWithin (nesting : Nesting) : Piece → Option Nesting
  | .quotation => some { nesting with afterOperand := true }
  | .opening => do
      let held ← sumWithin largest nesting.held nesting.run
      some
        { nesting with
          outer := nesting.run :: nesting.outer
          held := held
          run := 0
          afterOperand := false }
  | .closing =>
      match nesting.outer with
      | [] => some { nesting with afterOperand := true }
      | suspended :: outer => do
          let held ← difference? nesting.held suspended
          some
            { nesting with
              outer := outer
              held := held
              run := suspended
              afterOperand := true }
  | .sign =>
      if nesting.afterOperand then some nesting.interrupt
      else nesting.lengthenWithin largest
  | .tilde => nesting.lengthenWithin largest
  | .power => do
      let next ← nesting.lengthenWithin largest
      some { next with afterOperand := false }
  | .loose => some nesting.interrupt
  | .word text => nesting.wordWithin largest text
  | .other => some nesting

def levelWithin (nesting : Nesting) : Option Nat := do
  let inner ← sumWithin largest nesting.outer.length nesting.held
  sumWithin largest inner nesting.run

def stepWithin (nesting : Nesting) (piece : Piece) : Option Nesting := do
  let next ← nesting.takeWithin largest piece
  let level ← next.levelWithin largest
  some { next with deepest := max next.deepest level }

variable {largest : Nat} {nesting : Nesting}

theorem lengthenWithin_eq_some (hroom : nesting.level + 1 ≤ largest) :
    nesting.lengthenWithin largest = some { nesting with run := nesting.run + 1 } := by
  unfold level at hroom
  rw [lengthenWithin, sumWithin_eq_some (by omega)]
  rfl

theorem wordWithin_eq_some (hroom : nesting.level + 1 ≤ largest) (text : List Char) :
    nesting.wordWithin largest text = some (nesting.word text) := by
  have hlengthen := lengthenWithin_eq_some hroom
  unfold wordWithin word
  generalize String.ofList (text.map Char.toLower) = letters
  split
  · by_cases hoperand : nesting.afterOperand = true
    · rw [if_pos hoperand]
      exact congrArg some (if_pos hoperand).symm
    · rw [if_neg hoperand]
      exact hlengthen.trans (congrArg some (if_neg hoperand).symm)
  all_goals simp_all

theorem takeWithin_eq_some (hholds : nesting.HoldsSuspended)
    (hroom : nesting.level + 1 ≤ largest) (piece : Piece) :
    nesting.takeWithin largest piece = some (nesting.take piece) := by
  have hlengthen := lengthenWithin_eq_some hroom
  cases piece with
  | opening =>
      unfold level at hroom
      rw [takeWithin, sumWithin_eq_some (by omega)]
      rfl
  | closing =>
      cases houter : nesting.outer with
      | nil =>
          rw [take_closing_of_nil houter, takeWithin]
          simp only [houter]
      | cons suspended outer =>
          rw [takeWithin, houter, take_closing_of_cons houter]
          simp only [difference?_eq_some (hholds.le_held houter)]
          rfl
  | sign =>
      rw [takeWithin, take]
      split
      · rfl
      · exact hlengthen
  | tilde => exact hlengthen
  | power =>
      rw [takeWithin, hlengthen]
      rfl
  | word text => exact wordWithin_eq_some hroom text
  | _ => rfl

theorem levelWithin_eq_some (hroom : nesting.level ≤ largest) :
    nesting.levelWithin largest = some nesting.level := by
  unfold level at hroom
  rw [levelWithin, sumWithin_eq_some (by omega)]
  exact sumWithin_eq_some hroom

theorem stepWithin_eq_some (hholds : nesting.HoldsSuspended)
    (hroom : nesting.level + 1 ≤ largest) (piece : Piece) :
    nesting.stepWithin largest piece = some (nesting.step piece) := by
  have hlevel := Nat.le_trans (hholds.level_take_le piece) hroom
  rw [stepWithin, takeWithin_eq_some hholds hroom]
  simp only [Option.bind_eq_bind, Option.bind_some, levelWithin_eq_some hlevel]
  rfl

end Nesting

def nestingDepthWithin (largest : Nat) (text : String) : Option Nat :=
  ((pieces text.toList).foldlM (Nesting.stepWithin largest) {}).map Nesting.deepest

theorem Counting.foldlM_stepWithin {cs rest : List Char} {nesting : Nesting}
    (hcounting : Counting cs rest nesting) {largest : Nat} (hlargest : cs.length ≤ largest) :
    (pieces rest).foldlM (Nesting.stepWithin largest) nesting =
      some ((pieces rest).foldl Nesting.step nesting) := by
  induction rest using pieces.induct generalizing nesting with
  | case1 =>
      rw [pieces]
      rfl
  | case2 c rest ih =>
      have hroom : nesting.level + 1 ≤ largest := by
        have hle := hcounting.level_add_length_le
        rw [List.length_cons] at hle
        omega
      rw [pieces, List.foldlM_cons,
        Nesting.stepWithin_eq_some hcounting.holdsSuspended hroom]
      exact ih hcounting.piece

/-- The count of any text takes off no more than it holds, goes up by one level at most
with each piece, and is never deeper than the text is long.  So it is carried out in full
by numbers that reach as far as the length of the text. -/
theorem nestingDepth_within_length (text : String) :
    (∀ rest nesting, Counting text.toList rest nesting →
      nesting.held = nesting.outer.sum ∧
      (∀ suspended outer, nesting.outer = suspended :: outer → suspended ≤ nesting.held) ∧
      (∀ c after, rest = c :: after →
        (nesting.step (Piece.read c after).1).level ≤ nesting.level + 1 ∧
          (Piece.read c after).2 <:+ after) ∧
      nesting.level + rest.length ≤ text.length) ∧
    (∃ last, Counting text.toList [] last ∧ nestingDepth text = last.deepest) ∧
    nestingDepth text ≤ text.length ∧
    ∀ largest, text.length ≤ largest →
      nestingDepthWithin largest text = some (nestingDepth text) := by
  have hlength : text.toList.length = text.length := String.length_toList
  have hstart : Counting text.toList text.toList {} := .start
  have hlast := hstart.finish
  refine ⟨?states, ⟨_, hlast, rfl⟩, ?depth, ?within⟩
  case states =>
    intro rest nesting hcounting
    have hholds := hcounting.holdsSuspended
    refine ⟨hholds, fun _ _ => hholds.le_held, ?_, ?_⟩
    · rintro c after rfl
      exact ⟨hholds.level_take_le _, Piece.suffix_of_read c after⟩
    · rw [← hlength]
      exact hcounting.level_add_length_le
  case depth =>
    rw [← hlength]
    exact hlast.deepest_add_length_le
  case within =>
    intro largest hlargest
    rw [← hlength] at hlargest
    rw [nestingDepthWithin, Counting.start.foldlM_stepWithin hlargest]
    rfl

/-- Shorter numbers may not do. -/
example : nestingDepthWithin 1 ")((" = none ∧ nestingDepthWithin 2 ")((" = some 2 := by
  constructor <;> cbv

end RecordCondition
