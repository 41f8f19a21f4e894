import RecordCondition.Proofs.Nesting.Pieces
import RecordCondition.Proofs.Nesting.Tally

/-!
# How far the scan falls short

The scan keeps one run for all the prefixes that are in force, and an infix
operator ends it.  A tally also ends signs and powers there, but not `not`.  The
sign of an exponent ends the run of the scan as well, and behind a keyword that
was swallowed by a number a sign or `not` ends it in place of going on with it.
Beside a tally it is noted how many of the prefixes in force the scan has
dropped.  That many levels are missing from it wherever a level is entered.
-/

namespace RecordCondition

/-- `unseen` bounds how many of the prefixes in force the scan has dropped, and
`outer` does so for the brackets that are open.  The scan is misled when it takes
an operand to have ended where none has. -/
structure Watch where
  tally : Tally := {}
  outer : List Nat := []
  unseen : Nat := 0
  misled : Bool := false

namespace Watch

def inForce (watch : Watch) : Nat :=
  watch.tally.negations + watch.tally.run

def total (watch : Watch) : Nat :=
  watch.outer.sum + watch.unseen

/-- Whether an operand has ended for the scan. -/
def believes (watch : Watch) : Bool :=
  watch.tally.afterOperand || watch.misled

/-- Whether the run of the scan may end at the token. -/
def drops (watch : Watch) (inWord : Bool) : Token → Bool
  -- The sign of an exponent always follows an operand, the sign of a number none.
  | .number digits =>
      hasSignedExponent digits.toList ||
        watch.believes && !startsWithDigit digits.toList
  -- Where the scan is misled, a prefix is infix for it.
  | .keyword .not => watch.misled || watch.tally.afterOperand && !inWord
  | .keyword _ => !inWord
  | .symbol .plus | .symbol .minus => watch.believes
  | .symbol (.opening _) | .symbol (.closing _) => false
  | .symbol .tilde | .symbol .power | .symbol .dot => false
  | .symbol _ => true
  | _ => false

def misleads (watch : Watch) (inWord : Bool) : Token → Bool
  | .keyword _ => inWord
  | .symbol .tilde | .symbol .dot | .stray => watch.misled
  | _ => false

/-- A token that neither opens nor closes brackets. -/
def goOn (watch : Watch) (token : Token) (inWord : Bool) : Watch :=
  let next := { watch with
    tally := watch.tally.take token
    misled := watch.misleads inWord token }
  { next with
    unseen := if watch.drops inWord token then next.inForce else min watch.unseen next.inForce }

def enter (watch : Watch) : Watch :=
  { tally := watch.tally.enter, outer := watch.unseen :: watch.outer }

def leave (watch : Watch) : Watch :=
  match watch.outer with
  | [] => { watch with tally := watch.tally.leave, misled := false }
  | unseen :: outer => { tally := watch.tally.leave, outer := outer, unseen := unseen }

def take (watch : Watch) : Token × Bool → Watch
  | (.symbol (.opening _), _) => watch.enter
  | (.symbol (.closing _), _) => watch.leave
  | (token, inWord) => watch.goOn token inWord

/-- The most levels that are missing where a level is entered. -/
def shortfall (watch : Watch) : List (Token × Bool) → Nat
  | [] => 0
  | word :: words =>
      max
        (if watch.tally.level < (watch.take word).tally.level then (watch.take word).total else 0)
        ((watch.take word).shortfall words)

end Watch

/-- How many levels of a text its scan may miss. -/
def nestingShortfall (text : String) : Nat :=
  ({} : Watch).shortfall (lexWords false false text.toList)

/-! ## The scan beside the watch -/

inductive Suspended : List (Nat × Nat) → List Nat → List Nat → Prop
  | nil : Suspended [] [] []
  | cons {negations run unseen held : Nat} {tallies : List (Nat × Nat)}
      {unseens helds : List Nat} :
      negations + run ≤ held + unseen → Suspended tallies unseens helds →
      Suspended ((negations, run) :: tallies) (unseen :: unseens) (held :: helds)

structure Watch.Sees (watch : Watch) (nesting : Nesting) : Prop where
  outer : Suspended watch.tally.outer watch.outer nesting.outer
  held : nesting.held = nesting.outer.sum
  inForce : watch.inForce ≤ nesting.run + watch.unseen
  believes : nesting.afterOperand = watch.believes
  misled : watch.misled = true → watch.tally.afterOperand = false

theorem Suspended.outerLevel_le {tallies : List (Nat × Nat)} {unseens helds : List Nat}
    (hsuspended : Suspended tallies unseens helds) :
    (tallies.map fun suspended => suspended.1 + suspended.2 + 1).sum ≤
      helds.length + helds.sum + unseens.sum := by
  induction hsuspended with
  | nil => exact Nat.le_refl _
  | cons hle _ ih =>
      simp only [List.map_cons, List.sum_cons, List.length_cons]
      omega

/-- The level of the tally is that of the scan but for what the scan has dropped. -/
theorem Watch.Sees.level_le {watch : Watch} {nesting : Nesting}
    (hsees : watch.Sees nesting) : watch.tally.level ≤ nesting.level + watch.total := by
  have houter := hsees.outer.outerLevel_le
  have hinForce := hsees.inForce
  have hheld := hsees.held
  simp only [Tally.level, Tally.outerLevel, Nesting.level, Watch.total, Watch.inForce] at *
  omega

/-! ## Tokens other than brackets -/

def Piece.isBracket : Piece → Bool
  | .opening | .closing => true
  | _ => false

theorem Nesting.frame_take {nesting : Nesting} {piece : Piece}
    (hpiece : piece.isBracket = false) :
    (nesting.take piece).outer = nesting.outer ∧ (nesting.take piece).held = nesting.held := by
  cases piece with
  | opening => exact absurd hpiece.symm Bool.false_ne_true
  | closing => exact absurd hpiece.symm Bool.false_ne_true
  | sign =>
      simp only [take]
      split <;> exact ⟨rfl, rfl⟩
  | word text =>
      simp only [take, Nesting.word]
      repeat' split
      all_goals exact ⟨rfl, rfl⟩
  | _ => exact ⟨rfl, rfl⟩

theorem Nesting.deepest_take (nesting : Nesting) (piece : Piece) :
    (nesting.take piece).deepest = nesting.deepest := by
  cases piece with
  | closing =>
      simp only [take]
      split <;> rfl
  | sign =>
      simp only [take]
      split <;> rfl
  | word text =>
      simp only [take, Nesting.word]
      repeat' split
      all_goals rfl
  | _ => rfl

theorem Nesting.frame_foldl {pieces : List Piece}
    (hpieces : ∀ piece ∈ pieces, piece.isBracket = false) (nesting : Nesting) :
    (pieces.foldl step nesting).outer = nesting.outer ∧
      (pieces.foldl step nesting).held = nesting.held := by
  induction pieces generalizing nesting with
  | nil => exact ⟨rfl, rfl⟩
  | cons piece pieces ih =>
      rw [List.forall_mem_cons] at hpieces
      have htake := nesting.frame_take hpieces.1
      have hrest := ih hpieces.2 (nesting.step piece)
      rw [List.foldl_cons]
      exact ⟨hrest.1.trans htake.1, hrest.2.trans htake.2⟩

theorem Nesting.deepest_le_foldl (pieces : List Piece) (nesting : Nesting) :
    nesting.deepest ≤ (pieces.foldl step nesting).deepest := by
  induction pieces generalizing nesting with
  | nil => exact Nat.le_refl _
  | cons piece pieces ih =>
      have hrest := ih (nesting.step piece)
      have hstep : (nesting.take piece).deepest ≤ (nesting.step piece).deepest :=
        Nat.le_max_left _ _
      rw [nesting.deepest_take] at hstep
      exact Nat.le_trans hstep hrest

def Token.isBracket : Token → Bool
  | .symbol (.opening _) | .symbol (.closing _) => true
  | _ => false

theorem isBracket_numberPieces (digits : List Char) :
    ∀ piece ∈ numberPieces digits, piece.isBracket = false := by
  unfold numberPieces
  cases startsWithDigit digits <;> cases hasSignedExponent digits <;> decide

theorem Token.isBracket_pieces {token : Token} (htoken : token.isBracket = false)
    (inWord : Bool) : ∀ piece ∈ token.pieces inWord, piece.isBracket = false := by
  cases token with
  | number digits => exact isBracket_numberPieces digits.toList
  | keyword word => cases inWord <;> simp [Token.pieces, Piece.isBracket]
  | symbol mark =>
      cases mark with
      | opening _ => exact absurd htoken.symm Bool.false_ne_true
      | closing _ => exact absurd htoken.symm Bool.false_ne_true
      | _ =>
          rw [Token.pieces]
          decide
  | stray => exact fun _ hpiece => absurd hpiece List.not_mem_nil
  | _ => exact List.forall_mem_singleton.mpr rfl

theorem Tally.outer_take {tally : Tally} {token : Token} (htoken : token.isBracket = false) :
    (tally.take token).outer = tally.outer := by
  cases token with
  | keyword word =>
      cases word with
      | not =>
          simp only [take]
          repeat' split
          all_goals rfl
      | _ => rfl
  | symbol mark =>
      cases mark with
      | opening _ => exact absurd htoken.symm Bool.false_ne_true
      | closing _ => exact absurd htoken.symm Bool.false_ne_true
      | plus =>
          simp only [take]
          split <;> rfl
      | minus =>
          simp only [take]
          split <;> rfl
      | _ => rfl
  | _ => rfl

theorem Nesting.take_sign_of_operand {nesting : Nesting}
    (hoperand : nesting.afterOperand = true) : nesting.take .sign = nesting.interrupt := by
  simp only [take, hoperand, if_true]

theorem Nesting.take_sign_of_no_operand {nesting : Nesting}
    (hoperand : nesting.afterOperand = false) :
    nesting.take .sign = { nesting with run := nesting.run + 1 } := by
  simp only [take, hoperand, Bool.false_eq_true, if_false]

theorem Nesting.afterOperand_sign (nesting : Nesting) :
    (nesting.step .sign).afterOperand = false := by
  cases hoperand : nesting.afterOperand with
  | true => exact congrArg Nesting.afterOperand (take_sign_of_operand hoperand)
  | false =>
      exact (congrArg Nesting.afterOperand (take_sign_of_no_operand hoperand)).trans hoperand

theorem Nesting.afterOperand_keyword (nesting : Nesting) (word : Keyword) :
    (nesting.step (.word word.text.toList)).afterOperand = false := by
  cases word with
  | not =>
      change (if nesting.afterOperand then nesting.interrupt else _).afterOperand = false
      split
      · rfl
      · next hoperand => exact Bool.eq_false_iff.mpr hoperand
  | _ => rfl

theorem Tally.afterOperand_sign {mark : Symbol} (hmark : mark = .plus ∨ mark = .minus)
    (tally : Tally) : (tally.take (.symbol mark)).afterOperand = false := by
  have htake : tally.take (.symbol mark) =
      if tally.afterOperand then tally.interrupt else tally.prefixed := by
    rcases hmark with rfl | rfl <;> rfl
  rw [htake]
  split
  · rfl
  · next hoperand => exact Bool.eq_false_iff.mpr hoperand

theorem Tally.afterOperand_keyword (tally : Tally) (word : Keyword) :
    (tally.take (.keyword word)).afterOperand = false := by
  cases word with
  | not =>
      simp only [take]
      split
      · rfl
      · next hoperand =>
          split <;> exact Bool.eq_false_iff.mpr hoperand
  | _ => rfl

namespace Watch

variable {watch : Watch} {nesting : Nesting} {inWord : Bool}

theorem Sees.inForce_number (hsees : watch.Sees nesting) (digits : String)
    (hdrops : watch.drops inWord (.number digits) = false) :
    watch.inForce ≤ (nesting.stepToken (.number digits, inWord)).run + watch.unseen := by
  have hinForce := hsees.inForce
  rw [drops, Bool.or_eq_false_iff] at hdrops
  unfold Nesting.stepToken
  simp only [Token.pieces, numberPieces, hdrops.1, Bool.false_eq_true, if_false]
  cases hstart : startsWithDigit digits.toList with
  | true => exact hinForce
  | false =>
      have hbelieves : watch.believes = false := by
        simpa [hstart] using hdrops.2
      have hsign := Nesting.take_sign_of_no_operand (hsees.believes.trans hbelieves)
      have hrun : (nesting.step .sign).run = nesting.run + 1 := congrArg Nesting.run hsign
      change watch.inForce ≤ (nesting.step .sign).run + watch.unseen
      omega

theorem believes_eq_false_iff :
    watch.believes = false ↔ watch.tally.afterOperand = false ∧ watch.misled = false := by
  rw [believes, Bool.or_eq_false_iff]

theorem Sees.inForce_sign (hsees : watch.Sees nesting) {mark : Symbol}
    (hmark : mark = .plus ∨ mark = .minus) (hbelieves : watch.believes = false) :
    (watch.goOn (.symbol mark) inWord).inForce ≤
      (nesting.stepToken (.symbol mark, inWord)).run + watch.unseen := by
  have hinForce := hsees.inForce
  have hoperand : ¬ watch.tally.afterOperand = true := by
    rw [(believes_eq_false_iff.mp hbelieves).1]
    exact Bool.false_ne_true
  have htally : watch.tally.take (.symbol mark) = watch.tally.prefixed := by
    rcases hmark with rfl | rfl <;> exact if_neg hoperand
  have hscan := Nesting.take_sign_of_no_operand (hsees.believes.trans hbelieves)
  have hrun : (nesting.stepToken (.symbol mark, inWord)).run = nesting.run + 1 := by
    rcases hmark with rfl | rfl <;> exact congrArg Nesting.run hscan
  have hlevel : (watch.goOn (.symbol mark) inWord).inForce = watch.inForce + 1 := by
    change (watch.tally.take _).negations + (watch.tally.take _).run = _
    rw [htally]
    rfl
  omega

theorem Sees.inForce_not (hsees : watch.Sees nesting)
    (hinWord : inWord = true → nesting.afterOperand = true)
    (hdrops : watch.drops inWord (.keyword .not) = false) :
    (watch.goOn (.keyword .not) inWord).inForce ≤
      (nesting.stepToken (.keyword .not, inWord)).run + watch.unseen := by
  have hinForce := hsees.inForce
  rw [drops, Bool.or_eq_false_iff] at hdrops
  cases inWord with
  | true =>
      have hoperand : watch.tally.afterOperand = true := by
        have hbelieves := hsees.believes.symm.trans (hinWord rfl)
        rw [Watch.believes, hdrops.1, Bool.or_false] at hbelieves
        exact hbelieves
      have htally : watch.tally.take (.keyword .not) = watch.tally.interrupt :=
        if_pos hoperand
      change (watch.tally.take _).negations + (watch.tally.take _).run ≤ _
      rw [htally]
      exact Nat.le_trans (Nat.add_le_add_left (Nat.zero_le _) _) hinForce
  | false =>
      have hoperand : watch.tally.afterOperand = false := by simpa using hdrops.2
      have hbelieves : nesting.afterOperand = false := by
        rw [hsees.believes, believes_eq_false_iff]
        exact ⟨hoperand, hdrops.1⟩
      have hrun : (nesting.stepToken (.keyword .not, false)).run = nesting.run + 1 := by
        change (if nesting.afterOperand then nesting.interrupt else _).run = _
        rw [hbelieves]
        rfl
      have hlevel : (watch.goOn (.keyword .not) false).inForce ≤ watch.inForce + 1 := by
        change (watch.tally.take _).negations + (watch.tally.take _).run ≤ _
        simp only [Tally.take, hoperand, Bool.false_eq_true, if_false, Watch.inForce]
        split <;> dsimp only <;> omega
      omega

theorem Sees.inForce_goOn (hsees : watch.Sees nesting)
    (hinWord : inWord = true → nesting.afterOperand = true) {token : Token}
    (htoken : token.isBracket = false) (hdrops : watch.drops inWord token = false) :
    (watch.goOn token inWord).inForce ≤
      (nesting.stepToken (token, inWord)).run + watch.unseen := by
  have hinForce := hsees.inForce
  have hlevel : watch.inForce ≤ nesting.run + watch.unseen →
      watch.inForce + 1 ≤ nesting.run + 1 + watch.unseen := by omega
  cases token with
  | number digits => exact hsees.inForce_number digits hdrops
  | keyword word =>
      cases word with
      | and => exact Nat.zero_le _
      | or => exact Nat.zero_le _
      | «in» =>
          have hword : inWord = true := by simpa [drops] using hdrops
          subst hword
          exact Nat.le_trans (Nat.add_le_add_left (Nat.zero_le _) _) hinForce
      | is =>
          have hword : inWord = true := by simpa [drops] using hdrops
          subst hword
          exact Nat.le_trans (Nat.add_le_add_left (Nat.zero_le _) _) hinForce
      | not => exact hsees.inForce_not hinWord hdrops
  | symbol mark =>
      cases mark with
      | opening _ => exact absurd htoken.symm Bool.false_ne_true
      | closing _ => exact absurd htoken.symm Bool.false_ne_true
      | plus => exact hsees.inForce_sign (Or.inl rfl) hdrops
      | minus => exact hsees.inForce_sign (Or.inr rfl) hdrops
      | tilde => exact hlevel hinForce
      | power => exact hlevel hinForce
      | dot => exact hinForce
      | _ => exact absurd hdrops.symm Bool.false_ne_true
  | _ => exact hinForce

theorem Sees.believes_goOn (hsees : watch.Sees nesting)
    (hinWord : inWord = true → nesting.afterOperand = true) {token : Token}
    (htoken : token.isBracket = false) :
    (nesting.stepToken (token, inWord)).afterOperand =
      (watch.goOn token inWord).believes := by
  have hbelieves := hsees.believes
  cases token with
  | number digits => exact nesting.afterOperand_numberPieces digits.toList
  | keyword word =>
      have hbeside : (watch.goOn (.keyword word) inWord).believes = inWord := by
        change ((watch.tally.take (.keyword word)).afterOperand || inWord) = inWord
        rw [Tally.afterOperand_keyword, Bool.false_or]
      rw [hbeside]
      cases inWord with
      | true => exact hinWord rfl
      | false => exact nesting.afterOperand_keyword word
  | symbol mark =>
      cases mark with
      | opening _ => exact absurd htoken.symm Bool.false_ne_true
      | closing _ => exact absurd htoken.symm Bool.false_ne_true
      | plus =>
          change _ = ((watch.tally.take (.symbol .plus)).afterOperand || false)
          rw [Bool.or_false, Tally.afterOperand_sign (Or.inl rfl)]
          exact nesting.afterOperand_sign
      | minus =>
          change _ = ((watch.tally.take (.symbol .minus)).afterOperand || false)
          rw [Bool.or_false, Tally.afterOperand_sign (Or.inr rfl)]
          exact nesting.afterOperand_sign
      | tilde => exact hbelieves
      | dot => exact hbelieves
      | _ => rfl
  | stray => exact hbelieves
  | _ => rfl

theorem Sees.misled_goOn (hsees : watch.Sees nesting) {token : Token}
    (hmisled : (watch.goOn token inWord).misled = true) :
    (watch.goOn token inWord).tally.afterOperand = false := by
  cases token with
  | keyword word => exact watch.tally.afterOperand_keyword word
  | symbol mark =>
      cases mark with
      | tilde => exact hsees.misled hmisled
      | dot => exact hsees.misled hmisled
      | _ => exact absurd hmisled Bool.false_ne_true
  | stray => exact hsees.misled hmisled
  | _ => exact absurd hmisled Bool.false_ne_true

theorem Sees.goOn (hsees : watch.Sees nesting)
    (hinWord : inWord = true → nesting.afterOperand = true) {token : Token}
    (htoken : token.isBracket = false) :
    (watch.goOn token inWord).Sees (nesting.stepToken (token, inWord)) := by
  have hframe := nesting.frame_foldl (Token.isBracket_pieces htoken inWord)
  constructor
  · change Suspended (watch.tally.take token).outer watch.outer _
    rw [Tally.outer_take htoken]
    exact hframe.1 ▸ hsees.outer
  · exact (hframe.2.trans hsees.held).trans (congrArg List.sum hframe.1.symm)
  · change _ ≤ _ + if _ then _ else _
    split
    · exact Nat.le_add_left _ _
    · next hdrops =>
        have hkept := hsees.inForce_goOn hinWord htoken (Bool.eq_false_iff.mpr hdrops)
        rw [← Nat.add_min_add_left]
        exact Nat.le_min.mpr ⟨hkept, Nat.le_add_left _ _⟩
  · exact hsees.believes_goOn hinWord htoken
  · exact hsees.misled_goOn

/-! ## Brackets -/

theorem Sees.step {piece : Piece} (hsees : watch.Sees (nesting.take piece)) :
    watch.Sees (nesting.step piece) :=
  ⟨hsees.outer, hsees.held, hsees.inForce, hsees.believes, hsees.misled⟩

theorem Sees.enter (hsees : watch.Sees nesting) :
    watch.enter.Sees (nesting.step .opening) := by
  apply Sees.step
  constructor
  · exact .cons hsees.inForce hsees.outer
  · change nesting.held + nesting.run = (nesting.run :: nesting.outer).sum
    rw [hsees.held, List.sum_cons, Nat.add_comm]
  · exact Nat.zero_le _
  · rfl
  · intro hmisled
    exact absurd hmisled Bool.false_ne_true

theorem Sees.leave (hsees : watch.Sees nesting) :
    watch.leave.Sees (nesting.step .closing) := by
  have houter := hsees.outer
  have hheld := hsees.held
  apply Sees.step
  unfold Watch.leave Tally.leave
  simp only [Nesting.take]
  generalize htallies : watch.tally.outer = tallies at houter
  generalize hunseens : watch.outer = unseens at houter
  generalize hhelds : nesting.outer = helds at houter hheld
  cases houter with
  | nil =>
      constructor
      · simp only [Tally.operand, htallies]
        exact .nil
      · exact hheld
      · exact hsees.inForce
      · rfl
      · intro hmisled
        exact absurd hmisled Bool.false_ne_true
  | cons hle hrest =>
      rw [List.sum_cons] at hheld
      constructor
      · exact hrest
      · exact (congrArg (· - _) hheld).trans (Nat.add_sub_cancel_left _ _)
      · exact hle
      · rfl
      · intro hmisled
        exact absurd hmisled Bool.false_ne_true

theorem Sees.take (hsees : watch.Sees nesting) (token : Token)
    (hinWord : inWord = true → nesting.afterOperand = true) :
    (watch.take (token, inWord)).Sees (nesting.stepToken (token, inWord)) := by
  cases token with
  | symbol mark =>
      cases mark with
      | opening bracket => exact hsees.enter
      | closing bracket => exact hsees.leave
      | _ => exact hsees.goOn hinWord rfl
  | _ => exact hsees.goOn hinWord rfl

theorem tally_take (watch : Watch) (word : Token × Bool) :
    (watch.take word).tally = watch.tally.take word.1 := by
  obtain ⟨token, inWord⟩ := word
  cases token with
  | symbol mark =>
      cases mark with
      | closing bracket =>
          change watch.leave.tally = watch.tally.leave
          unfold leave
          split <;> rfl
      | _ => rfl
  | _ => rfl

/-! ## Whole texts -/

theorem deepest_le_foldl_stepToken (words : List (Token × Bool)) (nesting : Nesting) :
    nesting.deepest ≤ (words.foldl Nesting.stepToken nesting).deepest := by
  induction words generalizing nesting with
  | nil => exact Nat.le_refl _
  | cons word words ih =>
      have hstep := nesting.deepest_le_foldl (word.1.pieces word.2)
      exact Nat.le_trans hstep (ih (nesting.stepToken word))

theorem Sees.level_take_le {word : Token × Bool} (before : Watch)
    (hsees : (before.take word).Sees nesting) (hcompared : nesting.Compared) :
    (before.take word).tally.level ≤
      max before.tally.level
        (nesting.deepest +
          if before.tally.level < (before.take word).tally.level then (before.take word).total
          else 0) := by
  have hlevel := hsees.level_le
  have hdeepest : nesting.level ≤ nesting.deepest := hcompared
  split <;> omega

theorem Sees.deepest_le (afterOperand inWord : Bool) (cs : List Char)
    (hsees : watch.Sees nesting) (hcompared : nesting.Compared)
    (hinWord : inWord = true → nesting.afterOperand = true) :
    watch.tally.deepest ((lexWords afterOperand inWord cs).map Prod.fst) ≤
      max watch.tally.level
        (((lexWords afterOperand inWord cs).foldl Nesting.stepToken nesting).deepest +
          watch.shortfall (lexWords afterOperand inWord cs)) := by
  induction afterOperand, inWord, cs using lexWords.induct generalizing watch nesting with
  | case1 afterOperand inWord =>
      rw [lexWords]
      exact Nat.le_max_left _ _
  | case2 afterOperand inWord c rest hblank ih =>
      rw [lexWords, if_pos hblank]
      exact ih hsees hcompared (fun hword => absurd hword Bool.false_ne_true)
  | case3 afterOperand inWord c rest hblank ih =>
      rw [lexWords, if_neg hblank]
      generalize Token.read afterOperand c rest = read at ih ⊢
      obtain ⟨token, after⟩ := read
      dsimp only at ih ⊢
      have hnext := hsees.take token hinWord
      have hnextCompared := Nesting.compared_stepToken hcompared (token, inWord)
      have hrest := ih hnext hnextCompared (Nesting.afterOperand_stepToken hinWord)
      have hlevel := hnext.level_take_le watch hnextCompared
      have hgrows := deepest_le_foldl_stepToken
        (lexWords token.endsOperand (token.leavesWord inWord) after)
        (nesting.stepToken (token, inWord))
      rw [tally_take] at hrest hlevel
      rw [List.map_cons, List.foldl_cons, Tally.deepest, shortfall, tally_take]
      omega

end Watch

end RecordCondition
