import RecordCondition.Proofs.Nesting.Shortfall

/-!
# Brackets that are open at once

The brackets of a spelling stand in pairs around elements.  How many pairs are open at
once can be read off a count of opening and closing brackets alone.  Where no token is
a prefix or a power, that is the count which the scan of a text keeps.
-/

namespace RecordCondition

/-! ## Pairs -/

/-- The brackets among the tokens stand in pairs with elements between them, and no more
than `depth` pairs, but once that many, are open at a time. -/
inductive Nested : Nat → List Token → Prop
  | nil : Nested 0 []
  | plain {token : Token} {depth : Nat} {tokens : List Token} :
      token.isBracket = false → Nested depth tokens → Nested depth (token :: tokens)
  | pair (bracket : Bracket) {values : List Expr} {trailing : Bool}
      {depth later : Nat} {inner behind : List Token} :
      Spelled (.elements values trailing) inner → Nested depth inner →
      Nested later behind →
      Nested (max (depth + 1) later) (bracket.enclose inner ++ behind)

namespace Nested

variable {depth later : Nat} {first second tokens : List Token}

theorem append (hfirst : Nested depth first) (hsecond : Nested later second) :
    Nested (max depth later) (first ++ second) := by
  induction hfirst with
  | nil => simpa using hsecond
  | plain hbracket _ ih => exact .plain hbracket ih
  | pair bracket helements hinner _ _ ih =>
      rw [List.append_assoc, Nat.max_assoc]
      exact .pair bracket helements hinner ih

theorem enclose (bracket : Bracket) {values : List Expr} {trailing : Bool}
    (helements : Spelled (.elements values trailing) tokens) (hinner : Nested depth tokens) :
    Nested (depth + 1) (bracket.enclose tokens) := by
  have hpair := Nested.pair bracket helements hinner .nil
  simpa using hpair

end Nested

/-- The brackets among the tokens stand in pairs. -/
def Paired (tokens : List Token) : Prop :=
  ∃ depth, Nested depth tokens

namespace Paired

variable {first second tokens : List Token}

theorem nil : Paired [] :=
  ⟨0, .nil⟩

theorem cons {token : Token} (hbracket : token.isBracket = false)
    (htokens : Paired tokens) : Paired (token :: tokens) := by
  obtain ⟨depth, hnested⟩ := htokens
  exact ⟨depth, .plain hbracket hnested⟩

theorem append (hfirst : Paired first) (hsecond : Paired second) :
    Paired (first ++ second) := by
  obtain ⟨depth, hfirst⟩ := hfirst
  obtain ⟨later, hsecond⟩ := hsecond
  exact ⟨_, hfirst.append hsecond⟩

theorem enclose (bracket : Bracket) {values : List Expr} {trailing : Bool}
    (helements : Spelled (.elements values trailing) tokens) (htokens : Paired tokens) :
    Paired (bracket.enclose tokens) := by
  obtain ⟨depth, hnested⟩ := htokens
  exact ⟨depth + 1, hnested.enclose bracket helements⟩

theorem trailingComma (trailing : Bool) : Paired (trailingComma trailing) := by
  cases trailing with
  | true => exact .cons rfl .nil
  | false => exact .nil

theorem relation (relation : Relation) (htokens : Paired tokens) :
    Paired (relation.tokens ++ tokens) := by
  cases relation with
  | notIn | isNot => exact .cons rfl (.cons rfl htokens)
  | _ => exact .cons rfl htokens

theorem operator (op : BinaryOperator) (htokens : Paired tokens) :
    Paired (.symbol op.symbol :: tokens) := by
  cases op <;> exact .cons rfl htokens

end Paired

/-- One expression and nothing else between brackets. -/
theorem Spelled.single {e : Expr} {tokens : List Token}
    (hspelled : Spelled (.expr .disjunction e) tokens) :
    Spelled (.elements [e] false) tokens := by
  have helements := Spelled.someElements false hspelled (.noFollower _ _)
  simpa [RecordCondition.trailingComma] using helements

def Phrase.Paired : Phrase → List Token → Prop
  | .followers separator _ _, tokens =>
      separator.isBracket = false → RecordCondition.Paired tokens
  | _, tokens => RecordCondition.Paired tokens

/-- Groups, tuples, lists, calls and subscripts each have a pair of brackets around
their elements, and there are no other brackets. -/
theorem Spelled.phrase_paired {phrase : Phrase} {tokens : List Token}
    (hspelled : Spelled phrase tokens) : phrase.Paired tokens := by
  induction hspelled with
  | looser _ ih => exact ih
  | junction op _ _ ihfirst ihothers => exact Paired.append ihfirst (ihothers rfl)
  | not _ ih => exact Paired.cons rfl ih
  | compare _ _ ihleft ihsteps => exact Paired.append ihleft ihsteps
  | @sum op _ _ _ _ _ _ _ ihleft ihright =>
      exact Paired.append ihleft (Paired.operator op ihright)
  | @product op _ _ _ _ _ _ _ ihleft ihright =>
      exact Paired.append ihleft (Paired.operator op ihright)
  | @sign op _ _ _ _ ih => cases op <;> exact Paired.cons rfl ih
  | power _ _ ihbase ihexponent =>
      exact Paired.append ihbase (Paired.operator .power ihexponent)
  | call _ harguments ihfunction iharguments =>
      exact Paired.append ihfunction (Paired.enclose .round harguments iharguments)
  | attributed field _ ih => exact Paired.append ih (.cons rfl (.cons rfl .nil))
  | subscript _ hindex ihvalue ihindex =>
      exact Paired.append ihvalue (Paired.enclose .square hindex.single ihindex)
  | name id => exact Paired.cons rfl .nil
  | constant value => cases value <;> exact Paired.cons rfl .nil
  | group hvalue ih => exact Paired.enclose .round hvalue.single ih
  | tuple _ helements ih => exact Paired.enclose .round helements ih
  | list helements ih => exact Paired.enclose .square helements ih
  | noFollower _ _ => exact fun _ => .nil
  | follower _ _ ihvalue ihvalues =>
      intro hseparator
      exact .cons hseparator (Paired.append ihvalue (ihvalues hseparator))
  | noLink => exact Paired.nil
  | link relation _ _ ihvalue ihsteps =>
      exact Paired.relation relation (Paired.append ihvalue ihsteps)
  | noElement trailing => exact Paired.trailingComma trailing
  | someElements trailing _ _ ihfirst ihothers =>
      exact Paired.append ihfirst (Paired.append (ihothers rfl) (.trailingComma trailing))

/-! ## Counting -/

def Token.openAfter (count : Nat) : Token → Nat
  | .symbol (.opening _) => count + 1
  | .symbol (.closing _) => count - 1
  | _ => count

/-- The most brackets that are open at once, when `count` are open already. -/
def mostOpen (count : Nat) : List Token → Nat
  | [] => count
  | token :: tokens => max count (mostOpen (token.openAfter count) tokens)

theorem le_mostOpen (count : Nat) (tokens : List Token) : count ≤ mostOpen count tokens := by
  cases tokens with
  | nil => exact Nat.le_refl _
  | cons token tokens => exact Nat.le_max_left _ _

theorem Token.openAfter_of_not_isBracket {token : Token} (htoken : token.isBracket = false)
    (count : Nat) : token.openAfter count = count := by
  unfold Token.openAfter
  split
  · cases htoken
  · cases htoken
  · rfl

theorem mostOpen_enclose (bracket : Bracket) (count : Nat) (inner behind : List Token) :
    mostOpen count (bracket.enclose inner ++ behind) =
      mostOpen (count + 1) (inner ++ .symbol (.closing bracket) :: behind) := by
  have hle := le_mostOpen (count + 1) (inner ++ .symbol (.closing bracket) :: behind)
  rw [Bracket.enclose, List.cons_append, List.append_assoc, List.singleton_append, mostOpen,
    Token.openAfter]
  omega

theorem Nested.mostOpen_append {depth : Nat} {tokens : List Token}
    (hnested : Nested depth tokens) (count : Nat) (rest : List Token) :
    mostOpen count (tokens ++ rest) = max (count + depth) (mostOpen count rest) := by
  induction hnested generalizing count rest with
  | nil =>
      have hle := le_mostOpen count rest
      rw [List.nil_append]
      omega
  | plain hbracket _ ih =>
      rw [List.cons_append, mostOpen, Token.openAfter_of_not_isBracket hbracket, ih]
      omega
  | @pair bracket _ _ depth later inner behind _ _ _ ihinner ihbehind =>
      have hclose : mostOpen (count + 1) (.symbol (.closing bracket) :: (behind ++ rest)) =
          max (count + 1) (mostOpen count (behind ++ rest)) := rfl
      rw [List.append_assoc, mostOpen_enclose, ihinner, hclose, ihbehind]
      omega

/-- The brackets among the tokens determine how many pairs are open at once. -/
theorem Nested.depth_eq {depth : Nat} {tokens : List Token} (hnested : Nested depth tokens) :
    depth = mostOpen 0 tokens := by
  have hmost := hnested.mostOpen_append 0 []
  rw [List.append_nil] at hmost
  simpa [mostOpen] using hmost.symm

/-! ## The scan without prefixes -/

/-- The token is neither a prefix nor a power, and has no sign in it. -/
def Token.IsUnprefixed (afterOperand : Bool) : Token → Prop
  | .number digits =>
      startsWithDigit digits.toList = true ∧ hasSignedExponent digits.toList = false
  | .keyword .not => afterOperand = true
  | .symbol .plus | .symbol .minus | .symbol .tilde | .symbol .power => False
  | _ => True

def Unprefixed : Bool → List Token → Prop
  | _, [] => True
  | afterOperand, token :: tokens =>
      token.IsUnprefixed afterOperand ∧ Unprefixed token.endsOperand tokens

/-- No prefix is in force, and the scan has seen as many open brackets as there are. -/
structure Nesting.Flat (nesting : Nesting) (count : Nat) : Prop where
  outer : nesting.outer = List.replicate count 0
  held : nesting.held = 0
  run : nesting.run = 0
  counted : count ≤ nesting.deepest

namespace Nesting

variable {nesting : Nesting} {count : Nat}

/-- A piece behind which no prefix is in force makes the level the number of brackets. -/
theorem step_flat {piece : Piece}
    (houter : (nesting.take piece).outer = List.replicate count 0)
    (hheld : (nesting.take piece).held = 0) (hrun : (nesting.take piece).run = 0) :
    (nesting.step piece).Flat count ∧
      (nesting.step piece).deepest = max nesting.deepest count := by
  have hlevel : (nesting.take piece).level = count := by
    simp [Nesting.level, houter, hheld, hrun]
  have hdeepest : (nesting.step piece).deepest = max nesting.deepest count := by
    simp [Nesting.step, hlevel, nesting.deepest_take]
  refine ⟨⟨houter, hheld, hrun, ?_⟩, hdeepest⟩
  rw [hdeepest]
  exact Nat.le_max_right _ _

/-- A piece that neither is a bracket nor begins a run leaves the count as it is. -/
theorem Flat.step (hflat : nesting.Flat count) (piece : Piece)
    (hbracket : piece.isBracket = false) (hrun : (nesting.take piece).run = 0) :
    (nesting.step piece).Flat count ∧
      (nesting.step piece).deepest = max nesting.deepest count := by
  have hframe := nesting.frame_take hbracket
  exact step_flat (hframe.1.trans hflat.outer) (hframe.2.trans hflat.held) hrun

theorem Flat.opening (hflat : nesting.Flat count) :
    (nesting.step .opening).Flat (count + 1) ∧
      (nesting.step .opening).deepest = max nesting.deepest (count + 1) := by
  refine step_flat ?_ ?_ rfl
  · simp [take, hflat.outer, hflat.run, List.replicate_succ]
  · simp [take, hflat.held, hflat.run]

/-- A closing bracket without its counterpart changes nothing. -/
theorem Flat.closing (hflat : nesting.Flat count) :
    (nesting.step .closing).Flat (count - 1) ∧
      (nesting.step .closing).deepest = max nesting.deepest (count - 1) := by
  have htake : nesting.take .closing =
      { nesting with
        outer := List.replicate (count - 1) 0
        afterOperand := true } := by
    obtain ⟨outer, held, run, afterOperand, deepest⟩ := nesting
    obtain ⟨houter, hheld, hrun, -⟩ := hflat
    dsimp only at houter hheld hrun
    subst houter hheld hrun
    cases count with
    | zero => rfl
    | succ count => rfl
  apply step_flat
  · rw [htake]
  · rw [htake]
    exact hflat.held
  · rw [htake]
    exact hflat.run

theorem afterOperand_closing (nesting : Nesting) :
    (nesting.step .closing).afterOperand = true := by
  simp only [Nesting.step, take]
  split <;> rfl

theorem run_keyword {word : Keyword} {afterOperand : Bool}
    (hbelieves : afterOperand = true → nesting.afterOperand = true)
    (hunprefixed : (Token.keyword word).IsUnprefixed afterOperand) :
    (nesting.take (.word word.text.toList)).run = 0 := by
  cases word with
  | not =>
      have hoperand := hbelieves hunprefixed
      change (if nesting.afterOperand then nesting.interrupt else _).run = 0
      rw [if_pos hoperand]
      rfl
  | _ => rfl

/-- What one token does to the count. -/
theorem Flat.stepToken {token : Token} {afterOperand : Bool} (hflat : nesting.Flat count)
    (hbelieves : afterOperand = true → nesting.afterOperand = true)
    (hunprefixed : token.IsUnprefixed afterOperand) (inWord : Bool) :
    (nesting.stepToken (token, inWord)).Flat (token.openAfter count) ∧
      (nesting.stepToken (token, inWord)).deepest =
        max nesting.deepest (token.openAfter count) ∧
      (token.endsOperand = true → (nesting.stepToken (token, inWord)).afterOperand = true) := by
  have hsame : nesting.deepest = max nesting.deepest count :=
    (Nat.max_eq_left hflat.counted).symm
  have hquotation := hflat.step .quotation rfl hflat.run
  have hloose := hflat.step .loose rfl rfl
  cases token with
  | name _ | truth _ | quoted _ => exact ⟨hquotation.1, hquotation.2, fun _ => rfl⟩
  | number digits =>
      have hpieces : numberPieces digits.toList = [.quotation] := by
        simp [numberPieces, hunprefixed.1, hunprefixed.2]
      rw [Nesting.stepToken, Token.pieces, hpieces]
      exact ⟨hquotation.1, hquotation.2, fun _ => rfl⟩
  | keyword word =>
      cases inWord with
      -- Swallowed by the word in front of it, the keyword is not seen.
      | true => exact ⟨hflat, hsame, fun hends => absurd hends Bool.false_ne_true⟩
      | false =>
          have hword := hflat.step (.word word.text.toList) rfl
            (run_keyword hbelieves hunprefixed)
          exact ⟨hword.1, hword.2, fun hends => absurd hends Bool.false_ne_true⟩
  | symbol mark =>
      cases mark with
      | opening _ =>
          exact ⟨hflat.opening.1, hflat.opening.2, fun hends => absurd hends Bool.false_ne_true⟩
      | closing _ =>
          exact ⟨hflat.closing.1, hflat.closing.2, fun _ => nesting.afterOperand_closing⟩
      | plus | minus | tilde | power => exact absurd hunprefixed id
      | dot => exact ⟨hflat, hsame, fun hends => absurd hends Bool.false_ne_true⟩
      | doubleSlash | equal | notEqual | lessEqual | greaterEqual =>
          have htwice := hloose.1.step .loose rfl rfl
          have hdeepest : ((nesting.step .loose).step .loose).deepest =
              max nesting.deepest count := by
            rw [htwice.2, Nat.max_eq_left hloose.1.counted, hloose.2]
          exact ⟨htwice.1, hdeepest, fun hends => absurd hends Bool.false_ne_true⟩
      | comma | star | slash | percent | less | greater =>
          exact ⟨hloose.1, hloose.2, fun hends => absurd hends Bool.false_ne_true⟩
  | stray => exact ⟨hflat, hsame, fun hends => absurd hends Bool.false_ne_true⟩

theorem Flat.foldl_stepToken {words : List (Token × Bool)} {afterOperand : Bool}
    (hflat : nesting.Flat count)
    (hbelieves : afterOperand = true → nesting.afterOperand = true)
    (hunprefixed : Unprefixed afterOperand (words.map Prod.fst)) :
    (words.foldl Nesting.stepToken nesting).deepest =
      max nesting.deepest (mostOpen count (words.map Prod.fst)) := by
  induction words generalizing nesting count afterOperand with
  | nil => exact (Nat.max_eq_left hflat.counted).symm
  | cons word words ih =>
      obtain ⟨token, inWord⟩ := word
      obtain ⟨hnext, hdeepest, hoperand⟩ :=
        hflat.stepToken hbelieves hunprefixed.1 inWord
      have hle := le_mostOpen (token.openAfter count) (words.map Prod.fst)
      have hcounted := hflat.counted
      rw [List.foldl_cons, ih hnext hoperand hunprefixed.2, hdeepest, List.map_cons, mostOpen]
      dsimp only
      omega

end Nesting

end RecordCondition
