import RecordCondition.Nesting
import RecordCondition.Proofs.Spelling.Characters
import RecordCondition.Proofs.Spelling.Numbers
import RecordCondition.Proofs.Spelling.Placement

/-!
# The count over tokens

The depth of a text is counted over pieces that are cut without regard to its
tokens.  Where the tokens of a text take turns as operands and operators, the
count can be told from them all the same.  It differs from a count of the tokens
themselves in that a sign within a number is taken for an operator, and that a
keyword right behind a number is not seen: letters, digits and dots go on as one
word.
-/

namespace RecordCondition

open Text

/-! ## Tokens and words -/

def Symbol.pieces : Symbol → List Piece
  | .opening _ => [.opening]
  | .closing _ => [.closing]
  | .plus | .minus => [.sign]
  | .tilde => [.tilde]
  | .power => [.power]
  | .dot => []
  | .doubleSlash | .equal | .notEqual | .lessEqual | .greaterEqual => [.loose, .loose]
  | .comma | .star | .slash | .percent | .less | .greater => [.loose]

def isSignMark (c : Char) : Bool :=
  c = '+' || c = '-'

def hasSignedExponent (digits : List Char) : Bool :=
  digits.tail.any isSignMark

def numberPieces (digits : List Char) : List Piece :=
  (if startsWithDigit digits then [] else [.sign]) ++
    .quotation :: (if hasSignedExponent digits then [.sign, .quotation] else [])

/-- The pieces that a token counts as, given whether it begins within a word.
Every word that is no keyword counts like a quotation. -/
def Token.pieces (inWord : Bool) : Token → List Piece
  | .name _ | .truth _ | .quoted _ => [.quotation]
  | .number digits => numberPieces digits.toList
  | .keyword word => if inWord then [] else [.word word.text.toList]
  | .symbol mark => mark.pieces
  | .stray => []

/-- Whether a word goes on right behind the token. -/
def Token.leavesWord (inWord : Bool) : Token → Bool
  | .name _ | .truth _ | .number _ => true
  | .keyword _ | .symbol .dot => inWord
  | _ => false

/-- The tokens of a text, and of each whether it begins within a word. -/
def lexWords (afterOperand inWord : Bool) : List Char → List (Token × Bool)
  | [] => []
  | c :: rest =>
      if isBlank c then
        lexWords afterOperand false rest
      else
        ((Token.read afterOperand c rest).1, inWord) ::
          lexWords (Token.read afterOperand c rest).1.endsOperand
            ((Token.read afterOperand c rest).1.leavesWord inWord)
            (Token.read afterOperand c rest).2
  termination_by cs => cs.length
  decreasing_by
    · simp
    · exact Nat.lt_succ_of_le (Token.read_length afterOperand c rest)

theorem map_fst_lexWords (afterOperand inWord : Bool) (cs : List Char) :
    (lexWords afterOperand inWord cs).map Prod.fst =
      (lexAfter afterOperand cs).map Lexeme.token := by
  induction afterOperand, inWord, cs using lexWords.induct with
  | case1 afterOperand inWord =>
      rw [lexWords, lexAfter_nil]
      rfl
  | case2 afterOperand inWord c rest hblank ih =>
      rw [lexWords, if_pos hblank, lexAfter_blank hblank]
      exact ih
  | case3 afterOperand inWord c rest hblank ih =>
      rw [lexWords, if_neg hblank, lexAfter_token (Bool.not_eq_true _ ▸ hblank),
        List.map_cons, List.map_cons, ih]

/-! ## The counter on single pieces -/

namespace Nesting

/-- The level has been compared with the deepest. -/
def Compared (nesting : Nesting) : Prop :=
  nesting.level ≤ nesting.deepest

theorem compared_step (nesting : Nesting) (piece : Piece) :
    (nesting.step piece).Compared :=
  Nat.le_max_right _ _

theorem compared_foldl {nesting : Nesting} (hcompared : nesting.Compared)
    (pieces : List Piece) : (pieces.foldl step nesting).Compared := by
  induction pieces generalizing nesting with
  | nil => exact hcompared
  | cons piece pieces ih => exact ih (nesting.compared_step piece)

theorem step_quotation {nesting : Nesting} (hcompared : nesting.Compared) :
    nesting.step .quotation = { nesting with afterOperand := true } := by
  have hmax : max nesting.deepest nesting.level = nesting.deepest :=
    Nat.max_eq_left hcompared
  unfold step take
  change Nesting.mk _ _ _ _ (max nesting.deepest nesting.level) = _
  rw [hmax]

theorem step_quotation_of_afterOperand {nesting : Nesting}
    (hcompared : nesting.Compared) (hoperand : nesting.afterOperand = true) :
    nesting.step .quotation = nesting := by
  rw [step_quotation hcompared, ← hoperand]

theorem step_other {nesting : Nesting} (hcompared : nesting.Compared) :
    nesting.step .other = nesting := by
  have hmax : max nesting.deepest nesting.level = nesting.deepest :=
    Nat.max_eq_left hcompared
  unfold step take
  change Nesting.mk _ _ _ _ (max nesting.deepest nesting.level) = _
  rw [hmax]

def knownWords : List (List Char) :=
  ["not".toList, "and".toList, "or".toList, "in".toList, "is".toList]

theorem step_word {nesting : Nesting} {word : List Char}
    (hword : word.map Char.toLower ∉ knownWords) :
    nesting.step (.word word) = nesting.step .quotation := by
  have htake : nesting.word word = { nesting with afterOperand := true } := by
    unfold Nesting.word
    split
    all_goals
      first
      | rfl
      | next heq =>
          have hlower := congrArg String.toList heq
          rw [String.toList_ofList] at hlower
          rw [hlower] at hword
          exact absurd (by decide) hword
  unfold step
  simp only [take, htake]

end Nesting

/-! ## Scanning a text -/

/-- The count of a text that is entered within a word or at the end of one. -/
def scanFrom (inWord : Bool) (nesting : Nesting) (cs : List Char) : Nesting :=
  (pieces (if inWord then cs.dropWhile isWordContinue else cs)).foldl Nesting.step nesting

theorem scanFrom_nil (inWord : Bool) (nesting : Nesting) :
    scanFrom inWord nesting [] = nesting := by
  cases inWord <;> simp [scanFrom, pieces]

theorem pieces_of_read {c : Char} {rest after : List Char} {piece : Piece}
    (hread : Piece.read c rest = (piece, after)) :
    pieces (c :: rest) = piece :: pieces after := by
  rw [pieces, hread]

theorem scanFrom_cons (nesting : Nesting) (c : Char) (rest : List Char) :
    scanFrom false nesting (c :: rest) =
      scanFrom false (nesting.step (Piece.read c rest).1) (Piece.read c rest).2 := by
  unfold scanFrom
  simp only [Bool.false_eq_true, if_false]
  rw [pieces, List.foldl_cons]

theorem scanFrom_inWord_append {word : List Char}
    (hword : ∀ c ∈ word, isWordContinue c = true) (nesting : Nesting) (rest : List Char) :
    scanFrom true nesting (word ++ rest) = scanFrom true nesting rest := by
  unfold scanFrom
  simp only [if_true]
  rw [List.dropWhile_append_of_pos hword]

theorem scanFrom_inWord_cons {c : Char} (hc : isWordContinue c = false)
    (inWord : Bool) (nesting : Nesting) (rest : List Char) :
    scanFrom inWord nesting (c :: rest) = scanFrom false nesting (c :: rest) := by
  cases inWord with
  | false => rfl
  | true =>
      unfold scanFrom
      simp only [if_true, Bool.false_eq_true, if_false]
      rw [List.dropWhile_cons_of_neg (by rw [hc]; exact Bool.false_ne_true)]

theorem isWordContinue_of_isNameContinue {c : Char} (hname : isNameContinue c = true) :
    isWordContinue c = true := by
  rw [isWordContinue, hname, Bool.true_or]

theorem Piece.read_of_isNameContinue {c : Char} (hname : isNameContinue c = true)
    (rest : List Char) :
    Piece.read c rest =
      (.word (c :: rest.takeWhile isWordContinue), rest.dropWhile isWordContinue) := by
  unfold Piece.read
  split
  all_goals
    first
    | exact absurd hname (by decide)
    | rw [if_pos hname]

theorem scanFrom_word {c : Char} (hname : isNameContinue c = true) (nesting : Nesting)
    (rest : List Char) :
    scanFrom false nesting (c :: rest) =
      scanFrom true (nesting.step (.word (c :: rest.takeWhile isWordContinue))) rest := by
  rw [scanFrom_cons, Piece.read_of_isNameContinue hname]
  unfold scanFrom
  simp only [Bool.false_eq_true, if_false, if_true]

theorem exists_keyword_of_mem_knownWords {letters : List Char}
    (hknown : letters ∈ Nesting.knownWords) :
    ∃ word : Keyword, letters = word.text.toList := by
  simp only [Nesting.knownWords, List.mem_cons, List.not_mem_nil, or_false] at hknown
  rcases hknown with rfl | rfl | rfl | rfl | rfl
  · exact ⟨.not, rfl⟩
  · exact ⟨.and, rfl⟩
  · exact ⟨.or, rfl⟩
  · exact ⟨.in, rfl⟩
  · exact ⟨.is, rfl⟩

/-- A word with a digit or a dot in it is not known. -/
theorem not_mem_knownWords {word : List Char} {c : Char} (hmem : c ∈ word)
    (hc : c.toNat < 65) : word.map Char.toLower ∉ Nesting.knownWords := by
  intro hknown
  obtain ⟨keyword, hletters⟩ := exists_keyword_of_mem_knownWords hknown
  have hlower : c.toLower ∈ keyword.text.toList := by
    rw [← hletters]
    exact List.mem_map_of_mem hmem
  have hletter := code_of_areSmallLetters keyword.areSmallLetters_text _ hlower
  rw [toLower_eq_self (by omega)] at hletter
  omega

theorem scanFrom_unknown {c : Char} {word rest : List Char} {nesting : Nesting}
    {inWord : Bool} (hcompared : nesting.Compared)
    (hinWord : inWord = true → nesting.afterOperand = true)
    (hc : isNameContinue c = true) (hword : ∀ c ∈ word, isWordContinue c = true)
    (hunknown :
      (c :: (word ++ rest).takeWhile isWordContinue).map Char.toLower ∉
        Nesting.knownWords) :
    scanFrom inWord nesting (c :: (word ++ rest)) =
      scanFrom true (nesting.step .quotation) rest := by
  cases inWord with
  | false =>
      rw [scanFrom_word hc, Nesting.step_word hunknown, scanFrom_inWord_append hword]
  | true =>
      have hall : ∀ d ∈ c :: word, isWordContinue d = true :=
        List.forall_mem_cons.mpr ⟨isWordContinue_of_isNameContinue hc, hword⟩
      rw [Nesting.step_quotation_of_afterOperand hcompared (hinWord rfl)]
      exact scanFrom_inWord_append hall nesting rest

/-! ## Numbers -/

theorem isWordContinue_of_isDigit {c : Char} (hdigit : c.isDigit = true) :
    isWordContinue c = true :=
  isWordContinue_of_isNameContinue (isNameContinue_of_isDigit hdigit)

theorem isSignMark_of_isWordContinue {c : Char} (hc : isWordContinue c = true) :
    isSignMark c = false := by
  rw [← Bool.not_eq_true, isSignMark, Bool.or_eq_true, decide_eq_true_iff,
    decide_eq_true_iff]
  rintro (rfl | rfl) <;> exact absurd hc (by decide)

theorem any_isSignMark_eq_false {word : List Char}
    (hword : ∀ c ∈ word, isWordContinue c = true) : word.any isSignMark = false := by
  rw [List.any_eq_false]
  intro c hc
  rw [isSignMark_of_isWordContinue (hword c hc)]
  exact Bool.false_ne_true

theorem IsFraction.isWordContinue {fraction : List Char} (hfraction : IsFraction fraction) :
    ∀ c ∈ fraction, isWordContinue c = true := by
  cases hfraction with
  | none => exact fun _ hmem => absurd hmem List.not_mem_nil
  | some hdigits =>
      rw [List.forall_mem_cons]
      exact ⟨by decide, fun c hc => isWordContinue_of_isDigit (hdigits c hc)⟩

/-- A number without a sign of its own: one word, or two with a sign between. -/
inductive NumberShape : List Char → Prop
  | plain {c : Char} {word : List Char} :
      c.isDigit = true → (∀ d ∈ word, isWordContinue d = true) → NumberShape (c :: word)
  | signed {c first : Char} {word digits : List Char} (sign : Char) :
      c.isDigit = true → (∀ d ∈ word, isWordContinue d = true) → isSignMark sign = true →
      first.isDigit = true → AllDigits digits →
      NumberShape (c :: (word ++ sign :: first :: digits))

theorem IsUnsigned.shape {whole fraction exponent : List Char}
    (hnumber : IsUnsigned whole fraction exponent) :
    NumberShape (whole ++ fraction ++ exponent) := by
  obtain ⟨c, others, rfl⟩ := List.exists_cons_of_ne_nil hnumber.nonempty
  have hdigits := List.forall_mem_cons.mp hnumber.digits
  have hothers : ∀ d ∈ others, isWordContinue d = true := by
    intro d hd
    exact isWordContinue_of_isDigit (hdigits.2 d hd)
  have hfront : ∀ d ∈ others ++ fraction, isWordContinue d = true :=
    List.forall_mem_append.mpr ⟨hothers, hnumber.fraction.isWordContinue⟩
  cases hnumber.exponent with
  | none =>
      rw [List.append_nil]
      exact .plain hdigits.1 hfront
  | @some mark sign digits hmark hsign hnonempty hall =>
      have hmarked : isWordContinue mark = true := by
        rcases hmark with rfl | rfl <;> decide
      have hword : ∀ d ∈ others ++ fraction ++ [mark], isWordContinue d = true :=
        List.forall_mem_append.mpr ⟨hfront, List.forall_mem_singleton.mpr hmarked⟩
      obtain ⟨first, rest, rfl⟩ := List.exists_cons_of_ne_nil hnonempty
      have hrest := List.forall_mem_cons.mp hall
      have hsigned : ∀ s, isSignMark s = true →
          NumberShape (c :: others ++ fraction ++ mark :: ([s] ++ first :: rest)) := by
        intro s hs
        have hshape := NumberShape.signed s hdigits.1 hword hs hrest.1 hrest.2
        simp only [List.append_assoc, List.cons_append, List.nil_append] at hshape ⊢
        exact hshape
      rcases hsign with rfl | rfl | rfl
      · have hplain : ∀ d ∈ others ++ fraction ++ mark :: (first :: rest),
            isWordContinue d = true := by
          rw [List.forall_mem_append, List.forall_mem_cons]
          exact ⟨hfront, hmarked, fun d hd => isWordContinue_of_isDigit (hall d hd)⟩
        exact .plain hdigits.1 hplain
      · exact hsigned '+' rfl
      · exact hsigned '-' rfl

theorem Piece.read_of_isSignMark {c : Char} (hsign : isSignMark c = true)
    (rest : List Char) : Piece.read c rest = (.sign, rest) := by
  rw [isSignMark, Bool.or_eq_true, decide_eq_true_iff, decide_eq_true_iff] at hsign
  rcases hsign with rfl | rfl <;> rfl

theorem isWordContinue_of_isSignMark {c : Char} (hsign : isSignMark c = true) :
    isWordContinue c = false := by
  rw [← Bool.not_eq_true]
  intro hc
  rw [isSignMark_of_isWordContinue hc] at hsign
  exact absurd hsign (by decide)

theorem scanFrom_sign {c : Char} (hsign : isSignMark c = true) (inWord : Bool)
    (nesting : Nesting) (rest : List Char) :
    scanFrom inWord nesting (c :: rest) = scanFrom false (nesting.step .sign) rest := by
  rw [scanFrom_inWord_cons (isWordContinue_of_isSignMark hsign), scanFrom_cons,
    Piece.read_of_isSignMark hsign]

theorem scanFrom_digits {c : Char} {word : List Char} {nesting : Nesting} {inWord : Bool}
    (hcompared : nesting.Compared) (hinWord : inWord = true → nesting.afterOperand = true)
    (hc : c.isDigit = true) (hword : ∀ d ∈ word, isWordContinue d = true)
    (rest : List Char) :
    scanFrom inWord nesting (c :: (word ++ rest)) =
      scanFrom true (nesting.step .quotation) rest := by
  apply scanFrom_unknown hcompared hinWord (isNameContinue_of_isDigit hc) hword
  apply not_mem_knownWords List.mem_cons_self
  have hcode := isDigit_iff.mp hc
  omega

theorem scanFrom_numberShape {body : List Char} {nesting : Nesting} {inWord : Bool}
    (hshape : NumberShape body) (hcompared : nesting.Compared)
    (hinWord : inWord = true → nesting.afterOperand = true) (rest : List Char) :
    scanFrom inWord nesting (body ++ rest) =
      scanFrom true
        ((.quotation :: if body.any isSignMark then [.sign, .quotation] else []).foldl
          Nesting.step nesting) rest := by
  cases hshape with
  | @plain c word hc hword =>
      have hall : ∀ d ∈ c :: word, isWordContinue d = true :=
        List.forall_mem_cons.mpr ⟨isWordContinue_of_isDigit hc, hword⟩
      rw [any_isSignMark_eq_false hall]
      exact scanFrom_digits hcompared hinWord hc hword rest
  | @signed c first word digits sign hc hword hsign hfirst hdigits =>
      have hany : (c :: (word ++ sign :: first :: digits)).any isSignMark = true := by
        rw [List.any_eq_true]
        exact ⟨sign, by simp, hsign⟩
      have hrest : ∀ d ∈ digits, isWordContinue d = true := by
        intro d hd
        exact isWordContinue_of_isDigit (hdigits d hd)
      rw [hany, List.cons_append, List.append_assoc,
        scanFrom_digits hcompared hinWord hc hword, List.cons_append,
        scanFrom_sign hsign, List.cons_append,
        scanFrom_digits (Nesting.compared_step _ _) (fun h => absurd h (by decide)) hfirst
          hrest]
      rfl

end RecordCondition
