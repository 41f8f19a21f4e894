import RecordCondition.Proofs.Nesting.Bound

/-!
# Chains of powers

The sign of an exponent ends the run of powers that the scan keeps.  So a chain of
such numbers is as deep as it is long, and yet its nesting is counted as one level:
no limit on nesting limits the depth of what is read.
-/

namespace RecordCondition

namespace PowerChain

def link : Expr :=
  .constant (.number "1e-5")

def expr : Nat → Expr
  | 0 => link
  | count + 1 => .binary .power link (expr count)

def tokens : Nat → List Token
  | 0 => [.number "1e-5"]
  | count + 1 => .number "1e-5" :: .symbol .power :: tokens count

def chars : Nat → List Char
  | 0 => ['1', 'e', '-', '5']
  | count + 1 => '1' :: 'e' :: '-' :: '5' :: ' ' :: '*' :: '*' :: ' ' :: chars count

def text (count : Nat) : String :=
  String.ofList (chars count)

theorem depth_expr (count : Nat) : (expr count).depth = count := by
  induction count with
  | zero => rfl
  | succ count ih =>
      rw [expr, Expr.depth, if_pos rfl, ih]
      exact Nat.zero_max _

theorem spelled_link : Spelled (.expr .postfixed link) [.number "1e-5"] :=
  .looser (.constant (.number "1e-5"))

theorem spelled_factor (count : Nat) : Spelled (.expr .factor (expr count)) (tokens count) := by
  induction count with
  | zero => exact .looser spelled_link
  | succ count ih => exact .power spelled_link ih

theorem spelled (count : Nat) : Spelled (.expr .disjunction (expr count)) (tokens count) := by
  have hterm : Spelled (.expr .term (expr count)) (tokens count) := .looser (spelled_factor count)
  have hcomparison : Spelled (.expr .comparison (expr count)) (tokens count) :=
    .looser (.looser hterm)
  exact .looser (.looser (.looser hcomparison))

theorem isNumber_link : IsNumber "1e-5".toList :=
  ⟨[], ['1'], [], ['e', '-', '5'], rfl, Or.inl rfl, List.cons_ne_nil '1' [],
    List.forall_mem_singleton.mpr rfl, .none,
    .some (Or.inl rfl) (Or.inr (Or.inr rfl)) (List.cons_ne_nil '5' [])
      (List.forall_mem_singleton.mpr rfl)⟩

theorem layout (count : Nat) : Layout false (tokens count) (chars count) := by
  have hnumber : (Token.number "1e-5").Written "1e-5".toList := ⟨rfl, isNumber_link⟩
  induction count with
  | zero =>
      have hlayout : Layout false [.number "1e-5"] ("1e-5".toList ++ []) := by
        apply Layout.token hnumber (.nil true)
        intro next others hnone
        exact absurd hnone.symm (List.cons_ne_nil next others)
      exact hlayout
  | succ count ih =>
      have hmark : Token.Written (.symbol .power) "**".toList := rfl
      have hpower : Layout true (.symbol .power :: tokens count)
          (' ' :: ("**".toList ++ ' ' :: chars count)) := by
        apply Layout.blank rfl
        apply Layout.token hmark (.blank rfl ih)
        intro next others _ _
        exact ⟨' ', chars count, rfl, rfl⟩
      have hlayout : Layout false (.number "1e-5" :: .symbol .power :: tokens count)
          ("1e-5".toList ++ ' ' :: ("**".toList ++ ' ' :: chars count)) := by
        apply Layout.token hnumber hpower
        intro next others _ _
        exact ⟨' ', _, rfl, rfl⟩
      exact hlayout

theorem parse_text (count : Nat) : Expr.parse (text count) = .ok (expr count) := by
  apply Expr.parse_of_writtenAs
  refine ⟨tokens count, spelled count, ?_⟩
  rw [text, String.toList_ofList]
  exact layout count

theorem pieces_chars (count : Nat) :
    pieces (chars (count + 1)) =
      .word ['1', 'e'] :: .sign :: .word ['5'] :: .other :: .power :: .other ::
        pieces (chars count) := by
  iterate 5
    refine (pieces_of_read rfl).trans (congrArg _ ?_)
  exact pieces_of_read rfl

/-- A number whose exponent has a sign ends the run. -/
theorem step_number {run deepest : Nat} (hrun : run ≤ deepest) :
    ((({ run := run, deepest := deepest } : Nesting).step (.word ['1', 'e'])).step .sign).step
        (.word ['5']) =
      { afterOperand := true, deepest := deepest } := by
  have hword : ['1', 'e'].map Char.toLower ∉ Nesting.knownWords := by decide
  have hdigit : ['5'].map Char.toLower ∉ Nesting.knownWords := by decide
  rw [Nesting.step_word hword, Nesting.step_word hdigit]
  simp [Nesting.step, Nesting.take, Nesting.interrupt, Nesting.level, hrun]

theorem scan_chars (count : Nat) {run deepest : Nat} (hrun : run ≤ deepest)
    (hdeepest : deepest ≤ 1) :
    ((pieces (chars count)).foldl Nesting.step
      { run := run, deepest := deepest }).deepest ≤ 1 := by
  induction count generalizing run deepest with
  | zero =>
      have hpieces : pieces (chars 0) = [.word ['1', 'e'], .sign, .word ['5']] := by
        decide +kernel
      rw [hpieces]
      simp only [List.foldl_cons, List.foldl_nil]
      rw [step_number hrun]
      exact hdeepest
  | succ count ih =>
      rw [pieces_chars]
      simp only [List.foldl_cons]
      rw [step_number hrun]
      have hnext : ((({ afterOperand := true, deepest := deepest } : Nesting).step
          .other).step .power).step .other = { run := 1, deepest := 1 } := by
        simp [Nesting.step, Nesting.take, Nesting.level, hdeepest]
      rw [hnext]
      exact ih (Nat.le_refl 1) (Nat.le_refl 1)

theorem nestingDepth_text_le (count : Nat) : nestingDepth (text count) ≤ 1 := by
  unfold nestingDepth
  rw [text, String.toList_ofList]
  exact scan_chars count (Nat.zero_le 0) (Nat.zero_le 1)

theorem lexWords_chars (count : Nat) :
    lexWords false false (chars (count + 1)) =
      (.number "1e-5", false) :: (.symbol .power, false) ::
        lexWords false false (chars count) := by
  have hnumber : Token.read false '1'
      ('e' :: '-' :: '5' :: ' ' :: '*' :: '*' :: ' ' :: chars count) =
        (.number "1e-5", ' ' :: '*' :: '*' :: ' ' :: chars count) := rfl
  have hpower : Token.read true '*' ('*' :: ' ' :: chars count) =
      (.symbol .power, ' ' :: chars count) := rfl
  have hblank : Text.isBlank ' ' = true := rfl
  rw [chars, lexWords, if_neg (by decide), hnumber]
  dsimp only [Token.endsOperand]
  rw [lexWords, if_pos hblank, lexWords, if_neg (by decide), hpower]
  dsimp only [Token.endsOperand, Token.leavesWord]
  rw [lexWords, if_pos hblank]

theorem take_number (run unseen : Nat) :
    ({ tally := { run := run }, unseen := unseen } : Watch).take (.number "1e-5", false) =
      { tally := { run := run, afterOperand := true }, unseen := run } := by
  have hsigned : hasSignedExponent ['1', 'e', '-', '5'] = true := rfl
  simp [Watch.take, Watch.goOn, Watch.drops, Watch.inForce, Tally.take,
    Tally.operand, Watch.misleads, hsigned]

theorem take_power (run : Nat) :
    ({ tally := { run := run, afterOperand := true }, unseen := run } : Watch).take
        (.symbol .power, false) =
      { tally := { run := run + 1 }, unseen := run } := by
  simp [Watch.take, Watch.goOn, Watch.drops, Watch.inForce, Tally.take, Watch.misleads]

theorem shortfall_chars (count run : Nat) :
    ({ tally := { run := run }, unseen := run - 1 } : Watch).shortfall
      (lexWords false false (chars count)) ≤ run + count - 1 := by
  induction count generalizing run with
  | zero =>
      have hwords : lexWords false false (chars 0) = [(.number "1e-5", false)] := by
        decide +kernel
      rw [hwords, Watch.shortfall, Watch.shortfall, take_number]
      simp [Tally.level, Tally.outerLevel]
  | succ count ih =>
      have hrest := ih (run + 1)
      rw [lexWords_chars, Watch.shortfall, Watch.shortfall, take_number, take_power]
      simp [Tally.level, Tally.outerLevel, Watch.total] at hrest ⊢
      omega

theorem nestingShortfall_text_le (count : Nat) :
    nestingShortfall (text (count + 1)) ≤ count := by
  unfold nestingShortfall
  rw [text, String.toList_ofList]
  exact Nat.le_trans (shortfall_chars (count + 1) 0) (by omega)

/-- However deep, a chain of powers nests once, and all of its other levels are
missed. -/
theorem depth_eq_nestingDepth_add_shortfall (count : Nat) :
    Expr.parse (text (count + 1)) = .ok (expr (count + 1)) ∧
      (expr (count + 1)).depth = count + 1 ∧
      nestingDepth (text (count + 1)) = 1 ∧
      nestingShortfall (text (count + 1)) = count := by
  have hparse := parse_text (count + 1)
  have hdepth := depth_expr (count + 1)
  have hbound := Expr.depth_le_nestingDepth_add_shortfall hparse
  have hnesting := nestingDepth_text_le (count + 1)
  have hshortfall := nestingShortfall_text_le count
  refine ⟨hparse, hdepth, ?_, ?_⟩ <;> omega

end PowerChain

end RecordCondition
