import RecordCondition.Proofs.Nesting.Scan
import RecordCondition.Proofs.Spelling.Lexing

/-!
# The pieces of each token

The text of one token is scanned to the pieces that the token counts as, and the
text behind it is then entered within a word or at the end of one.  A keyword in
front of a dot would be cut otherwise; there the turns of operands and operators
are needed.
-/

namespace RecordCondition

open Text

/-! ## Words -/

theorem takeWhile_eq_takeWhile {p q : Char → Bool} {cs : List Char}
    (hstronger : ∀ c, p c = true → q c = true)
    (hall : ∀ c ∈ cs.takeWhile q, p c = true) : cs.takeWhile p = cs.takeWhile q := by
  induction cs with
  | nil => rfl
  | cons c rest ih =>
      by_cases hc : q c = true
      · rw [List.takeWhile_cons_of_pos hc, List.forall_mem_cons] at hall
        rw [List.takeWhile_cons_of_pos hc, List.takeWhile_cons_of_pos hall.1, ih hall.2]
      · have hp : ¬ p c = true := fun hp => hc (hstronger c hp)
        rw [List.takeWhile_cons_of_neg hc, List.takeWhile_cons_of_neg hp]

theorem ofWord_eq_keyword_of_known {c : Char} {rest : List Char}
    (hknown : (c :: rest.takeWhile isWordContinue).map Char.toLower ∈ Nesting.knownWords) :
    ∃ word, Token.ofWord (c :: rest.takeWhile isNameContinue) = .keyword word := by
  obtain ⟨word, hletters⟩ := exists_keyword_of_mem_knownWords hknown
  have hstart := isNameStart_of_map_toLower word.areSmallLetters_text hletters
  have hname : ∀ d ∈ rest.takeWhile isWordContinue, isNameContinue d = true := by
    intro d hd
    exact isNameContinue_of_isNameStart (hstart d (List.mem_cons_of_mem c hd))
  have hsame : rest.takeWhile isNameContinue = rest.takeWhile isWordContinue :=
    takeWhile_eq_takeWhile (fun _ => isWordContinue_of_isNameContinue) hname
  rw [← hsame] at hletters
  exact ⟨word, Token.ofWord_keyword hletters⟩

theorem Token.ofWord_cases (word : List Char) :
    (∃ keyword : Keyword, Token.ofWord word = .keyword keyword ∧
      word.map Char.toLower = keyword.text.toList) ∨
    (∀ keyword, Token.ofWord word ≠ .keyword keyword) ∧
      ∀ inWord, (Token.ofWord word).pieces inWord = [.quotation] ∧
        (Token.ofWord word).leavesWord inWord = true := by
  unfold Token.ofWord
  split
  all_goals
    first
    | next heq =>
        left
        have hletters := congrArg String.toList heq
        rw [String.toList_ofList] at hletters
        exact ⟨_, rfl, hletters⟩
    | exact Or.inr ⟨fun _ => Token.noConfusion, fun _ => ⟨rfl, rfl⟩⟩

theorem Nesting.step_keyword {word : List Char} {keyword : Keyword} (nesting : Nesting)
    (hletters : word.map Char.toLower = keyword.text.toList) :
    nesting.step (.word word) = nesting.step (.word keyword.text.toList) := by
  have hsmall : keyword.text.toList.map Char.toLower = keyword.text.toList := by
    cases keyword <;> decide
  have hword : nesting.word word = nesting.word keyword.text.toList := by
    unfold Nesting.word
    rw [hletters, hsmall]
  unfold step
  simp only [take, hword]

theorem isWordContinue_iff {c : Char} :
    isWordContinue c = true ↔ isNameContinue c = true ∨ c = '.' := by
  rw [isWordContinue, Bool.or_eq_true, decide_eq_true_iff]

theorem scanFrom_keyword {c : Char} {word rest : List Char} {keyword : Keyword}
    (hc : isNameContinue c = true) (hword : ∀ d ∈ word, isNameContinue d = true)
    (hletters : (c :: word).map Char.toLower = keyword.text.toList)
    (hrest : Leading (fun d => isNameContinue d = false) rest)
    (hdot : Leading (fun d => d ≠ '.') rest) (nesting : Nesting) :
    scanFrom false nesting (c :: (word ++ rest)) =
      scanFrom false (nesting.step (.word keyword.text.toList)) rest := by
  have hcontinue : ∀ d ∈ word, isWordContinue d = true := by
    intro d hd
    exact isWordContinue_of_isNameContinue (hword d hd)
  have hstops : Leading (fun d => isWordContinue d = false) rest := by
    intro d tail heq
    rw [← Bool.not_eq_true, isWordContinue_iff]
    rintro (hname | hmark)
    · rw [hrest d tail heq] at hname
      exact Bool.false_ne_true hname
    · exact hdot d tail heq hmark
  rw [scanFrom_word hc, takeWhile_append hcontinue hstops, Nesting.step_keyword _ hletters,
    scanFrom_inWord_append hcontinue]
  cases rest with
  | nil => rw [scanFrom_nil, scanFrom_nil]
  | cons d tail => exact scanFrom_inWord_cons (hstops d tail rfl) true _ _

/-! ## Quotations -/

theorem skipQuotation_of_split {quote : Char} {cs text after : List Char}
    (hsplit : splitQuotation quote cs = some (text, after)) :
    skipQuotation quote cs = after := by
  fun_induction splitQuotation quote cs generalizing text with
  | case1 => exact absurd hsplit (by simp)
  | case2 c rest ih =>
      obtain ⟨⟨inner, tail⟩, hinner, heq⟩ := Option.map_eq_some_iff.mp hsplit
      obtain ⟨-, rfl⟩ := Prod.mk.inj heq
      exact ih hinner
  | case3 rest hescape =>
      obtain ⟨-, rfl⟩ := Prod.mk.inj (Option.some.inj hsplit)
      by_cases hmark : quote = '\\'
      · subst hmark
        cases rest with
        | nil => rfl
        | cons c tail => exact absurd rfl (hescape c tail rfl)
      · rw [skipQuotation, if_pos rfl]
        · exact fun hmarked => absurd hmarked hmark
        · exact fun _ _ hmarked => absurd hmarked hmark
  | case4 c rest hescape hne ih =>
      obtain ⟨⟨inner, tail⟩, hinner, heq⟩ := Option.map_eq_some_iff.mp hsplit
      obtain ⟨-, rfl⟩ := Prod.mk.inj heq
      by_cases hmark : c = '\\'
      · cases rest with
        | nil => exact absurd hinner (by simp [splitQuotation])
        | cons d others => exact absurd rfl (hescape d others hmark)
      · rw [skipQuotation, if_neg hne]
        · exact ih hinner
        · exact fun hmarked => absurd hmarked hmark
        · exact fun _ _ hmarked => absurd hmarked hmark

theorem scanFrom_quotation {quote : Char} {text rest after : List Char} {inWord : Bool}
    (hquote : quote = '\'' ∨ quote = '"')
    (hsplit : splitQuotation quote rest = some (text, after)) (nesting : Nesting) :
    scanFrom inWord nesting (quote :: rest) =
      scanFrom false (nesting.step .quotation) after := by
  have hends : isWordContinue quote = false := by
    rcases hquote with rfl | rfl <;> decide
  have hread : Piece.read quote rest = (.quotation, skipQuotation quote rest) := by
    rcases hquote with rfl | rfl <;> rfl
  rw [scanFrom_inWord_cons hends, scanFrom_cons, hread, skipQuotation_of_split hsplit]

/-! ## Symbols -/

/-- A symbol other than a dot is cut into its own pieces. -/
theorem Symbol.pieces_text {mark : Symbol} {after : List Char} (hdot : mark ≠ .dot)
    (hstar : mark = .star → Leading (fun c => c ≠ '*') after) :
    RecordCondition.pieces (mark.text.toList ++ after) =
      mark.pieces ++ RecordCondition.pieces after := by
  have hpiece : ∀ (c : Char) (piece : Piece) (rest : List Char),
      Piece.read c rest = (piece, rest) →
        RecordCondition.pieces (c :: rest) = piece :: RecordCondition.pieces rest :=
    fun _ _ _ hread => pieces_of_read hread
  cases mark with
  | dot => exact absurd rfl hdot
  | power =>
      have hread : Piece.read '*' ('*' :: after) = (.power, after) := rfl
      exact pieces_of_read hread
  | star =>
      apply hpiece '*' .loose
      cases after with
      | nil => rfl
      | cons d tail =>
          have hd := hstar rfl d tail rfl
          unfold Piece.read
          split
          all_goals
            first
            | rfl
            | contradiction
            | next _ heq => exact absurd (List.cons.inj heq).1 hd
  | opening bracket => cases bracket <;> exact hpiece _ _ _ rfl
  | closing bracket => cases bracket <;> exact hpiece _ _ _ rfl
  | doubleSlash =>
      exact (hpiece '/' .loose _ rfl).trans (congrArg _ (hpiece '/' .loose _ rfl))
  | equal => exact (hpiece '=' .loose _ rfl).trans (congrArg _ (hpiece '=' .loose _ rfl))
  | notEqual => exact (hpiece '!' .loose _ rfl).trans (congrArg _ (hpiece '=' .loose _ rfl))
  | lessEqual => exact (hpiece '<' .loose _ rfl).trans (congrArg _ (hpiece '=' .loose _ rfl))
  | greaterEqual =>
      exact (hpiece '>' .loose _ rfl).trans (congrArg _ (hpiece '=' .loose _ rfl))
  | _ => exact hpiece _ _ _ rfl

theorem Symbol.text_toList_ne_nil (mark : Symbol) : mark.text.toList ≠ [] := by
  cases mark with
  | opening bracket => cases bracket <;> decide
  | closing bracket => cases bracket <;> decide
  | _ => decide

theorem Symbol.scanFrom_read {c : Char} {rest after : List Char} {mark : Symbol}
    {inWord : Bool} {nesting : Nesting} (hcompared : nesting.Compared)
    (hread : Symbol.read c rest = some (mark, after)) :
    scanFrom inWord nesting (c :: rest) =
      scanFrom ((Token.symbol mark).leavesWord inWord)
        (mark.pieces.foldl Nesting.step nesting) after := by
  have htext := Symbol.text_append_of_read hread
  by_cases hdot : mark = .dot
  · subst hdot
    obtain ⟨rfl, rfl⟩ := List.cons.inj htext
    cases inWord with
    | true =>
        have hword : ∀ c ∈ ['.'], isWordContinue c = true :=
          List.forall_mem_singleton.mpr rfl
        exact scanFrom_inWord_append hword nesting after
    | false =>
        rw [scanFrom_cons]
        exact congrArg (scanFrom false · after) (Nesting.step_other hcompared)
  · have hstar : mark = .star → Leading (fun c => c ≠ '*') after := by
      rintro rfl d tail rfl rfl
      obtain ⟨rfl, rfl⟩ := List.cons.inj htext
      have hpower : Symbol.read '*' ('*' :: tail) = some (.power, tail) := rfl
      exact absurd (hpower.symm.trans hread) (by simp)
    have hends : isWordContinue c = false := by
      obtain ⟨first, others, hmark⟩ := List.exists_cons_of_ne_nil mark.text_toList_ne_nil
      rw [hmark] at htext
      obtain ⟨rfl, -⟩ := List.cons.inj htext
      rw [← Bool.not_eq_true, isWordContinue_iff]
      rintro (hname | rfl)
      · rw [(Symbol.first_of_text hmark).1] at hname
        exact Bool.false_ne_true hname
      · exact hdot (Symbol.eq_dot_of_text hmark)
    have hleaves : (Token.symbol mark).leavesWord inWord = false := by
      cases mark with
      | dot => exact absurd rfl hdot
      | _ => rfl
    rw [scanFrom_inWord_cons hends, ← htext, hleaves]
    unfold scanFrom
    simp only [Bool.false_eq_true, if_false]
    rw [Symbol.pieces_text hdot hstar, List.foldl_append]

/-! ## Tokens -/

theorem hasSignedExponent_cons {c : Char} (hc : isSignMark c = false) (body : List Char) :
    hasSignedExponent (c :: body) = (c :: body).any isSignMark := by
  rw [hasSignedExponent, List.tail_cons, List.any_cons, hc, Bool.false_or]

theorem IsUnsigned.numberPieces_eq {whole fraction exponent : List Char}
    (hnumber : IsUnsigned whole fraction exponent) :
    numberPieces (whole ++ fraction ++ exponent) =
      .quotation :: if (whole ++ fraction ++ exponent).any isSignMark
        then [.sign, .quotation] else [] := by
  obtain ⟨c, others, rfl⟩ := List.exists_cons_of_ne_nil hnumber.nonempty
  have hc := hnumber.digits c List.mem_cons_self
  have hsign := isSignMark_of_isWordContinue (isWordContinue_of_isDigit hc)
  have hstart : startsWithDigit (c :: (others ++ fraction ++ exponent)) = true := hc
  simp only [List.cons_append]
  rw [numberPieces, hasSignedExponent_cons hsign, if_pos hstart, List.nil_append]

theorem IsUnsigned.numberPieces_sign {whole fraction exponent : List Char} {sign : Char}
    (hsign : isSignMark sign = true) :
    numberPieces (sign :: (whole ++ fraction ++ exponent)) =
      .sign :: .quotation :: if (whole ++ fraction ++ exponent).any isSignMark
        then [.sign, .quotation] else [] := by
  have hstart : ¬ startsWithDigit (sign :: (whole ++ fraction ++ exponent)) = true := by
    intro hdigit
    rw [isSignMark_of_isWordContinue (isWordContinue_of_isDigit hdigit)] at hsign
    exact Bool.false_ne_true hsign
  rw [numberPieces, if_neg hstart, hasSignedExponent, List.tail_cons]
  rfl

section Tokens

variable {inWord : Bool} {nesting : Nesting} {c : Char} {rest : List Char}
variable (hcompared : nesting.Compared)
variable (hinWord : inWord = true → nesting.afterOperand = true)

include hcompared hinWord

theorem scanFrom_ofWord {word : List Char} (hc : isNameContinue c = true)
    (hname : ∀ d ∈ word, isNameContinue d = true)
    (hrest : Leading (fun d => isNameContinue d = false) rest)
    (hdot : ∀ keyword, Token.ofWord (c :: word) = .keyword keyword →
      Leading (fun d => d ≠ '.') rest) :
    scanFrom inWord nesting (c :: (word ++ rest)) =
      scanFrom ((Token.ofWord (c :: word)).leavesWord inWord)
        (((Token.ofWord (c :: word)).pieces inWord).foldl Nesting.step nesting) rest := by
  have hcontinue : ∀ d ∈ word, isWordContinue d = true := by
    intro d hd
    exact isWordContinue_of_isNameContinue (hname d hd)
  rcases Token.ofWord_cases (c :: word) with ⟨keyword, htoken, hletters⟩ | ⟨hnone, hpieces⟩
  · have hstops := hdot keyword htoken
    rw [htoken]
    cases inWord with
    | false => exact scanFrom_keyword hc hname hletters hrest hstops nesting
    | true =>
        have hall : ∀ d ∈ c :: word, isWordContinue d = true :=
          List.forall_mem_cons.mpr ⟨isWordContinue_of_isNameContinue hc, hcontinue⟩
        exact scanFrom_inWord_append hall nesting rest
  · have hunknown : (c :: (word ++ rest).takeWhile isWordContinue).map Char.toLower ∉
        Nesting.knownWords := by
      intro hknown
      obtain ⟨keyword, htoken⟩ := ofWord_eq_keyword_of_known hknown
      rw [takeWhile_append hname hrest] at htoken
      exact hnone keyword htoken
    rw [(hpieces inWord).1, (hpieces inWord).2]
    exact scanFrom_unknown hcompared hinWord hc hcontinue hunknown

theorem scanFrom_number (hdigit : c.isDigit = true) :
    scanFrom inWord nesting (c :: rest) =
      scanFrom true
        ((numberPieces (splitNumber (c :: rest)).1).foldl Nesting.step nesting)
        (splitNumber (c :: rest)).2 := by
  have hsplit := splitNumber_append (c :: rest)
  have hstart : startsWithDigit (c :: rest) = true := hdigit
  obtain ⟨whole, fraction, exponent, hbody, hnumber⟩ := isUnsigned_splitNumber hstart
  rw [hbody] at hsplit ⊢
  rw [hnumber.numberPieces_eq, ← scanFrom_numberShape hnumber.shape hcompared hinWord, hsplit]

omit hcompared hinWord in
theorem scanFrom_signedNumber (hsign : isSignMark c = true)
    (hdigit : startsWithDigit rest = true) :
    scanFrom inWord nesting (c :: rest) =
      scanFrom true
        ((numberPieces (c :: (splitNumber rest).1)).foldl Nesting.step nesting)
        (splitNumber rest).2 := by
  have hsplit := splitNumber_append rest
  obtain ⟨whole, fraction, exponent, hbody, hnumber⟩ := isUnsigned_splitNumber hdigit
  rw [hbody] at hsplit ⊢
  rw [IsUnsigned.numberPieces_sign hsign, List.foldl_cons,
    ← scanFrom_numberShape hnumber.shape (Nesting.compared_step _ _)
      (fun h => absurd h Bool.false_ne_true), hsplit, scanFrom_sign hsign]

/-- The text of a token is scanned to the pieces of the token. -/
theorem Token.scanFrom_read {afterOperand : Bool} {token : Token} {after : List Char}
    (hread : Token.read afterOperand c rest = (token, after)) (hstray : token ≠ .stray)
    (hdot : ∀ keyword, token = .keyword keyword → Leading (fun d => d ≠ '.') after) :
    scanFrom inWord nesting (c :: rest) =
      scanFrom (token.leavesWord inWord)
        ((token.pieces inWord).foldl Nesting.step nesting) after := by
  unfold Token.read at hread
  split at hread
  · next hstart =>
      obtain ⟨rfl, rfl⟩ := Prod.mk.inj hread
      have hname : ∀ d ∈ rest.takeWhile isNameContinue, isNameContinue d = true := by
        intro d hd
        exact List.all_eq_true.mp List.all_takeWhile d hd
      have hword := scanFrom_ofWord hcompared hinWord
        (isNameContinue_of_isNameStart hstart) hname (leading_dropWhile _ rest) hdot
      rw [List.takeWhile_append_dropWhile] at hword
      exact hword
  split at hread
  · next hdigit =>
      obtain ⟨rfl, rfl⟩ := Prod.mk.inj hread
      rw [scanFrom_number hcompared hinWord hdigit, Token.pieces, String.toList_ofList]
      rfl
  split at hread
  · next hsigned =>
      obtain ⟨rfl, rfl⟩ := Prod.mk.inj hread
      rw [Bool.and_eq_true, Bool.and_eq_true] at hsigned
      rw [scanFrom_signedNumber hsigned.1.1 hsigned.2, Token.pieces, String.toList_ofList]
      rfl
  split at hread
  · next hquote =>
      split at hread
      · next text after hsplit =>
          obtain ⟨rfl, rfl⟩ := Prod.mk.inj hread
          rw [Bool.or_eq_true, decide_eq_true_iff, decide_eq_true_iff] at hquote
          exact scanFrom_quotation hquote hsplit nesting
      · exact absurd (Prod.mk.inj hread).1.symm hstray
  · split at hread
    · next mark after hsymbol =>
        obtain ⟨rfl, rfl⟩ := Prod.mk.inj hread
        exact Symbol.scanFrom_read hcompared hsymbol
    · exact absurd (Prod.mk.inj hread).1.symm hstray

end Tokens

/-! ## Whole texts -/

def Nesting.stepToken (nesting : Nesting) (word : Token × Bool) : Nesting :=
  (word.1.pieces word.2).foldl step nesting

theorem Nesting.compared_stepToken {nesting : Nesting} (hcompared : nesting.Compared)
    (word : Token × Bool) : (nesting.stepToken word).Compared :=
  compared_foldl hcompared _

theorem Nesting.afterOperand_numberPieces (nesting : Nesting) (digits : List Char) :
    ((numberPieces digits).foldl step nesting).afterOperand = true := by
  rw [numberPieces, List.foldl_append, List.foldl_cons]
  cases hasSignedExponent digits <;> rfl

theorem Nesting.afterOperand_stepToken {nesting : Nesting} {token : Token}
    {inWord : Bool} (hinWord : inWord = true → nesting.afterOperand = true)
    (hleaves : token.leavesWord inWord = true) :
    (nesting.stepToken (token, inWord)).afterOperand = true := by
  cases token with
  | name _ => rfl
  | truth _ => rfl
  | number digits => exact nesting.afterOperand_numberPieces _
  | keyword word =>
      have hword : inWord = true := hleaves
      subst hword
      exact hinWord rfl
  | quoted _ => exact absurd hleaves Bool.false_ne_true
  | symbol mark =>
      cases mark with
      | dot => exact hinWord hleaves
      | _ => exact absurd hleaves Bool.false_ne_true
  | stray => exact absurd hleaves Bool.false_ne_true

theorem scanFrom_blank {c : Char} (hblank : isBlank c = true) {nesting : Nesting}
    (hcompared : nesting.Compared) (inWord : Bool) (rest : List Char) :
    scanFrom inWord nesting (c :: rest) = scanFrom false nesting rest := by
  have hends : isWordContinue c = false := by
    rw [isBlank_iff] at hblank
    rcases hblank with rfl | rfl | rfl | rfl <;> decide
  have hread : Piece.read c rest = (.other, rest) := by
    rw [isBlank_iff] at hblank
    rcases hblank with rfl | rfl | rfl | rfl <;> rfl
  rw [scanFrom_inWord_cons hends, scanFrom_cons, hread, Nesting.step_other hcompared]

/-- No operator that needs an operand in front of it stands behind a keyword. -/
theorem leading_of_placed {inWord : Bool} {cs : List Char}
    (hplaced : Placed false ((lexWords false inWord cs).map Prod.fst)) :
    Leading (fun c => c ≠ '.') cs := by
  rintro c tail rfl rfl
  have hread : Token.read false '.' tail = (.symbol .dot, tail) := rfl
  rw [lexWords, if_neg (by decide), hread] at hplaced
  exact absurd (hplaced.1 trivial) Bool.false_ne_true

/-- Scanning a text counts its tokens one by one. -/
theorem scanFrom_eq_foldl (afterOperand inWord : Bool) (cs : List Char)
    {nesting : Nesting} (hcompared : nesting.Compared)
    (hinWord : inWord = true → nesting.afterOperand = true)
    (hplaced : Placed afterOperand ((lexWords afterOperand inWord cs).map Prod.fst)) :
    scanFrom inWord nesting cs =
      (lexWords afterOperand inWord cs).foldl Nesting.stepToken nesting := by
  induction afterOperand, inWord, cs using lexWords.induct generalizing nesting with
  | case1 afterOperand inWord =>
      rw [scanFrom_nil, lexWords]
      rfl
  | case2 afterOperand inWord c rest hblank ih =>
      rw [lexWords, if_pos hblank] at hplaced ⊢
      rw [scanFrom_blank hblank hcompared]
      exact ih hcompared (fun hword => absurd hword Bool.false_ne_true) hplaced
  | case3 afterOperand inWord c rest hblank ih =>
      rw [lexWords, if_neg hblank] at hplaced ⊢
      obtain ⟨token, after, hread⟩ : ∃ token after,
          Token.read afterOperand c rest = (token, after) := ⟨_, _, rfl⟩
      rw [hread] at ih hplaced ⊢
      dsimp only at ih hplaced ⊢
      rw [List.map_cons] at hplaced
      have hfollowing := hplaced.2
      have hhere : token ≠ .stray := by
        rintro rfl
        exact hplaced.1
      have hdot : ∀ keyword, token = .keyword keyword →
          Leading (fun d => d ≠ '.') after := by
        rintro keyword rfl
        exact leading_of_placed hfollowing
      rw [Token.scanFrom_read hcompared hinWord hread hhere hdot, List.foldl_cons]
      exact ih (Nesting.compared_stepToken hcompared (token, inWord))
        (Nesting.afterOperand_stepToken hinWord) hfollowing

end RecordCondition
