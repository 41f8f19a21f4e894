import Mathlib.Data.List.Infix
import Mathlib.Data.List.TakeWhile
import RecordCondition.Proofs.Expr.Equality
import RecordCondition.Proofs.Nesting.Bound
import RecordCondition.Proofs.Nesting.Brackets
import RecordCondition.Proofs.Spelling.Negation
import RecordCondition.Proofs.Spelling.Respacing

/-!
# Texts without prefixes

Whether a text has a sign, a power or a prefix `not` outside its quotations can be seen
without reading it.  Of a text that has none and can be read, the nesting is exactly
the number of brackets that are open at once.
-/

namespace RecordCondition

open Text

/-! ## Texts with empty quotations -/

/-- The text with nothing between the marks of its quotations, given the mark of the
quotation that is open. -/
def emptyQuotations : Option Char → List Char → List Char
  | _, [] => []
  | none, c :: rest => c :: emptyQuotations (if IsMark c then some c else none) rest
  | some mark, '\\' :: _ :: rest => emptyQuotations (some mark) rest
  | some mark, c :: rest =>
      if c = mark then mark :: emptyQuotations none rest
      else emptyQuotations (some mark) rest

/-- The word at the front of the characters, in small letters. -/
def frontWord (cs : List Char) : List Char :=
  (cs.takeWhile isNameContinue).map Char.toLower

/-- The characters do not end within a word. -/
def EndsOutsideWord (cs : List Char) : Prop :=
  ∀ c ∈ cs.getLast?, isNameContinue c = false

structure WithoutPrefixes (cs : List Char) : Prop where
  signs : ∀ c ∈ cs, c ≠ '+' ∧ c ≠ '-' ∧ c ≠ '~'
  powers : ¬ ['*', '*'] <:+: cs
  /-- Behind the word `not` the next word is `in`. -/
  negations : ∀ before after, cs = before ++ after → EndsOutsideWord before →
    frontWord after = "not".toList →
    frontWord ((after.dropWhile isNameContinue).dropWhile isBlank) = "in".toList

/-- Outside its quotations the text has no sign, no power and no `not` but in `not in`. -/
def PrefixFree (text : String) : Prop :=
  WithoutPrefixes (emptyQuotations none text.toList)

instance (cs : List Char) : Decidable (EndsOutsideWord cs) :=
  decidable_of_iff (cs.getLast?.all (fun c => !isNameContinue c) = true) (by
    cases hlast : cs.getLast? <;> simp [EndsOutsideWord, hlast])

/-- The places in a text are as many as it has characters, and one more. -/
theorem withoutPrefixes_iff (cs : List Char) :
    WithoutPrefixes cs ↔
      cs.all (fun c => decide (c ≠ '+' ∧ c ≠ '-' ∧ c ≠ '~')) = true ∧
      ¬ ['*', '*'] <:+: cs ∧
      ∀ i < cs.length + 1, EndsOutsideWord (cs.take i) →
        frontWord (cs.drop i) = "not".toList →
        frontWord (((cs.drop i).dropWhile isNameContinue).dropWhile isBlank) =
          "in".toList := by
  constructor
  · rintro ⟨hsigns, hpowers, hnegations⟩
    refine ⟨by simpa using hsigns, hpowers, ?_⟩
    intro i _ hout hfront
    exact hnegations _ _ (List.take_append_drop i cs).symm hout hfront
  · rintro ⟨hsigns, hpowers, hnegations⟩
    refine ⟨by simpa using hsigns, hpowers, ?_⟩
    rintro before after rfl hout hfront
    have hbound : before.length < (before ++ after).length + 1 := by
      rw [List.length_append]
      omega
    have hplace := hnegations before.length hbound
    rw [List.take_left, List.drop_left] at hplace
    exact hplace hout hfront

instance (cs : List Char) : Decidable (WithoutPrefixes cs) :=
  decidable_of_iff _ (withoutPrefixes_iff cs).symm

instance (text : String) : Decidable (PrefixFree text) :=
  inferInstanceAs (Decidable (WithoutPrefixes (emptyQuotations none text.toList)))

theorem emptyQuotations_append {plain : List Char} (hplain : ∀ c ∈ plain, ¬ IsMark c)
    (rest : List Char) :
    emptyQuotations none (plain ++ rest) = plain ++ emptyQuotations none rest := by
  induction plain with
  | nil => rfl
  | cons c plain ih =>
      rw [List.forall_mem_cons] at hplain
      rw [List.cons_append, emptyQuotations, if_neg hplain.1, ih hplain.2, List.cons_append]

theorem emptyQuotations_body {mark : Char} {text body : List Char}
    (hmark : mark ≠ '\\') (hquoted : Quoted mark text body) (rest : List Char) :
    emptyQuotations (some mark) (body ++ mark :: rest) = mark :: emptyQuotations none rest := by
  induction hquoted with
  | nil =>
      rw [List.nil_append, emptyQuotations, if_pos rfl]
      exact fun _ _ heq => absurd heq hmark
  | plain hne hc _ ih =>
      rw [List.cons_append, emptyQuotations, if_neg hne, ih]
      exact fun _ _ heq => absurd heq hc
  | escaped c _ ih => exact ih

theorem emptyQuotations_quotation {mark : Char} {text body : List Char}
    (hmark : IsMark mark) (hquoted : Quoted mark text body) (rest : List Char) :
    emptyQuotations none (mark :: (body ++ mark :: rest)) =
      [mark, mark] ++ emptyQuotations none rest := by
  rw [emptyQuotations, if_pos hmark, emptyQuotations_body hmark.ne_backslash hquoted]
  rfl

theorem Leading.emptyQuotations {holds : Char → Prop} {cs : List Char}
    (hleading : Leading holds cs) : Leading holds (emptyQuotations none cs) := by
  cases cs with
  | nil => exact hleading
  | cons c tail => exact Leading.cons (hleading c tail rfl) _

theorem span_emptyQuotations {p : Char → Bool} (hp : ∀ c, IsMark c → p c = false)
    (cs : List Char) :
    (emptyQuotations none cs).takeWhile p = cs.takeWhile p ∧
      (emptyQuotations none cs).dropWhile p = emptyQuotations none (cs.dropWhile p) := by
  have hall : ∀ c ∈ cs.takeWhile p, p c = true :=
    fun _ hc => List.mem_takeWhile_imp hc
  have hplain : ∀ c ∈ cs.takeWhile p, ¬ IsMark c := by
    intro c hc hmark
    have hholds := hall c hc
    rw [hp c hmark] at hholds
    cases hholds
  have hstops := (leading_dropWhile p cs).emptyQuotations
  have hsplit : emptyQuotations none cs =
      cs.takeWhile p ++ emptyQuotations none (cs.dropWhile p) := by
    rw [← emptyQuotations_append hplain, List.takeWhile_append_dropWhile]
  rw [hsplit, takeWhile_append hall hstops, dropWhile_append hall hstops]
  exact ⟨rfl, rfl⟩

theorem isNameContinue_of_isMark (c : Char) (hmark : IsMark c) : isNameContinue c = false := by
  rcases hmark with rfl | rfl <;> decide

theorem isBlank_of_isMark (c : Char) (hmark : IsMark c) : isBlank c = false :=
  hmark.isBlank_eq_false

theorem frontWord_emptyQuotations (cs : List Char) :
    frontWord (emptyQuotations none cs) = frontWord cs := by
  rw [frontWord, frontWord, (span_emptyQuotations isNameContinue_of_isMark cs).1]

/-- The word that follows, and the blanks in front of it, are outside quotations. -/
theorem frontWord_behind (cs : List Char) :
    frontWord (((emptyQuotations none cs).dropWhile isNameContinue).dropWhile isBlank) =
      frontWord ((cs.dropWhile isNameContinue).dropWhile isBlank) := by
  rw [(span_emptyQuotations isNameContinue_of_isMark cs).2,
    (span_emptyQuotations isBlank_of_isMark _).2, frontWord_emptyQuotations]

/-! ## From the text to its tokens -/

theorem lexAfter_dropBlanks (afterOperand : Bool) (cs : List Char) :
    lexAfter afterOperand (cs.dropWhile isBlank) = lexAfter afterOperand cs := by
  have hblanks : ∀ c ∈ cs.takeWhile isBlank, isBlank c = true :=
    fun _ hc => List.mem_takeWhile_imp hc
  rw [← lexAfter_blanks hblanks, List.takeWhile_append_dropWhile]

/-- A keyword at the front is the first token. -/
theorem head?_lexAfter_of_frontWord {word : Keyword} {cs : List Char}
    (hfront : frontWord cs = word.text.toList) (afterOperand : Bool) :
    ((lexAfter afterOperand cs).map Lexeme.token).head? = some (.keyword word) := by
  have hletters := isNameStart_of_map_toLower word.areSmallLetters_text hfront
  cases cs with
  | nil => cases word <;> cases hfront
  | cons c rest =>
      by_cases hname : isNameContinue c = true
      · rw [frontWord, List.takeWhile_cons_of_pos hname] at hfront
        rw [List.takeWhile_cons_of_pos hname] at hletters
        have hstart : isNameStart c = true := hletters c List.mem_cons_self
        have hblank := isBlank_eq_false_of_isNameContinue hname
        rw [lexAfter_token hblank, Token.read, if_pos hstart]
        exact congrArg some (Token.ofWord_keyword hfront)
      · rw [frontWord, List.takeWhile_cons_of_neg hname] at hfront
        cases word <;> cases hfront

/-- Only a word is read as a keyword, and it is read to its end. -/
theorem Token.leading_of_read_keyword {afterOperand : Bool} {c : Char}
    {rest after : List Char} {word : Keyword}
    (hread : Token.read afterOperand c rest = (.keyword word, after)) :
    Leading (fun d => isNameContinue d = false) after := by
  unfold Token.read at hread
  split at hread
  · obtain ⟨-, rfl⟩ := Prod.mk.inj hread
    exact leading_dropWhile _ rest
  · repeat' split at hread
    all_goals exact absurd (Prod.mk.inj hread).1 Token.noConfusion

theorem AllDigits.not_isMark {digits : List Char} (hdigits : AllDigits digits) :
    ∀ c ∈ digits, ¬ IsMark c :=
  fun c hc => (isPlain_of_isDigit (hdigits c hc)).2

theorem IsSign.not_isMark {sign : List Char} (hsign : IsSign sign) : ∀ c ∈ sign, ¬ IsMark c := by
  rcases hsign with rfl | rfl | rfl
  · simp
  · exact List.forall_mem_singleton.mpr (by decide)
  · exact List.forall_mem_singleton.mpr (by decide)

theorem IsNumber.not_isMark {cs : List Char} (hnumber : IsNumber cs) :
    ∀ c ∈ cs, ¬ IsMark c := by
  obtain ⟨sign, whole, fraction, exponent, rfl, hsign, -, hwhole, hfraction, hexponent⟩ :=
    hnumber
  simp only [List.forall_mem_append]
  refine ⟨hsign.not_isMark, ⟨hwhole.not_isMark, ?_⟩, ?_⟩
  · cases hfraction with
    | none => simp
    | some hdigits => exact List.forall_mem_cons.mpr ⟨by decide, hdigits.not_isMark⟩
  · cases hexponent with
    | none => simp
    | some hmark hsigned _ hdigits =>
        rw [List.forall_mem_cons, List.forall_mem_append]
        refine ⟨?_, hsigned.not_isMark, hdigits.not_isMark⟩
        rcases hmark with rfl | rfl <;> decide

theorem Symbol.mem_text (mark : Symbol) :
    ∀ c ∈ mark.text.toList, ¬ IsMark c ∧ isNameContinue c = false := by
  have hall : mark.text.toList.all
      (fun c => decide (¬ IsMark c) && !isNameContinue c) = true := by
    cases mark with
    | opening bracket => cases bracket <;> rfl
    | closing bracket => cases bracket <;> rfl
    | _ => rfl
  intro c hc
  simpa using List.all_eq_true.mp hall c hc

theorem Token.not_isMark_of_written {token : Token} {written : List Char}
    (hwritten : token.Written written) (hquoted : ∀ text, token ≠ .quoted text) :
    ∀ c ∈ written, ¬ IsMark c := by
  have hword : (∀ c ∈ written, isNameStart c = true) → ∀ c ∈ written, ¬ IsMark c := by
    intro hstart c hc
    exact (isPlain_of_isNameContinue (isNameContinue_of_isNameStart (hstart c hc))).2
  cases token with
  | name id =>
      intro c hc
      exact (isPlain_of_isNameContinue (hwritten.2.all c hc)).2
  | keyword word =>
      exact hword (isNameStart_of_map_toLower word.areSmallLetters_text hwritten)
  | truth value =>
      cases value with
      | true => exact hword (isNameStart_of_map_toLower (by decide) hwritten)
      | false => exact hword (isNameStart_of_map_toLower (by decide) hwritten)
  | number digits =>
      obtain ⟨rfl, hnumber⟩ := hwritten
      exact hnumber.not_isMark
  | quoted text => exact absurd rfl (hquoted text)
  | symbol mark =>
      obtain rfl := hwritten
      exact fun c hc => (mark.mem_text c hc).1
  | stray => exact absurd hwritten id

theorem IsNumber.isUnprefixed {digits : String} (hnumber : IsNumber digits.toList)
    (hsigns : ∀ c ∈ digits.toList, isSignMark c = false) (afterOperand : Bool) :
    (Token.number digits).IsUnprefixed afterOperand := by
  obtain ⟨sign, whole, fraction, exponent, hdigits, hsign, hnonempty, hwhole, -, -⟩ := hnumber
  have hany : digits.toList.tail.any isSignMark = false := by
    rw [List.any_eq_false]
    intro c hc
    rw [hsigns c (List.mem_of_mem_tail hc)]
    exact Bool.false_ne_true
  refine ⟨?_, hany⟩
  rw [hdigits] at hsigns ⊢
  rcases hsign with rfl | rfl | rfl
  · obtain ⟨first, others, rfl⟩ := List.exists_cons_of_ne_nil hnonempty
    exact hwhole first List.mem_cons_self
  · exact absurd (hsigns '+' (by simp)) (by decide)
  · exact absurd (hsigns '-' (by simp)) (by decide)

theorem EndsOutsideWord.append {front : List Char} (hfront : EndsOutsideWord front)
    (hnonempty : front ≠ []) (before : List Char) : EndsOutsideWord (before ++ front) := by
  intro c hc
  rw [List.getLast?_append_of_ne_nil _ hnonempty] at hc
  exact hfront c hc

/-- A place in a text that is without prefixes outside its quotations: what stands in
front of it, and that no word goes on there unless an operand has ended. -/
structure Within (whole : List Char) (afterOperand : Bool) (before cs : List Char) : Prop where
  split : whole = before ++ emptyQuotations none cs
  word : afterOperand = false →
    EndsOutsideWord before ∨ Leading (fun c => isNameContinue c = false) cs

theorem Within.blank {whole before rest : List Char} {afterOperand : Bool} {c : Char}
    (hwithin : Within whole afterOperand before (c :: rest)) (hblank : isBlank c = true) :
    Within whole afterOperand (before ++ [c]) rest := by
  have hmark : ¬ IsMark c := by
    intro hmark
    rw [hmark.isBlank_eq_false] at hblank
    cases hblank
  have hname : isNameContinue c = false := by
    rw [← Bool.not_eq_true]
    intro hname
    rw [isBlank_eq_false_of_isNameContinue hname] at hblank
    cases hblank
  constructor
  · rw [hwithin.split, List.append_assoc,
      ← emptyQuotations_append (List.forall_mem_singleton.mpr hmark), List.singleton_append]
  · intro _
    left
    apply EndsOutsideWord.append _ (List.cons_ne_nil _ _)
    simpa [EndsOutsideWord] using hname

section Token

variable {whole before rest after : List Char} {afterOperand : Bool} {c : Char} {token : Token}

/-- A token other than a quotation stands in the text as it is written. -/
theorem Within.split_token (hwithin : Within whole afterOperand before (c :: rest))
    (hread : Token.read afterOperand c rest = (token, after)) (hstray : token ≠ .stray)
    (hquoted : ∀ text, token ≠ .quoted text) :
    ∃ written, token.Written written ∧ c :: rest = written ++ after ∧
      whole = before ++ (written ++ emptyQuotations none after) := by
  rcases Token.stray_or_written hread with ⟨hfound, -⟩ | ⟨written, hwritten, hsplit⟩
  · exact absurd hfound hstray
  · refine ⟨written, hwritten, hsplit, ?_⟩
    rw [hwithin.split, hsplit,
      emptyQuotations_append (Token.not_isMark_of_written hwritten hquoted)]

/-- A token goes over to what stands in front of the place. -/
theorem Within.behind (hwithin : Within whole afterOperand before (c :: rest))
    (hread : Token.read afterOperand c rest = (token, after)) (hstray : token ≠ .stray) :
    ∃ front, Within whole token.endsOperand (before ++ front) after := by
  by_cases hquoted : ∃ text, token = .quoted text
  · obtain ⟨text, rfl⟩ := hquoted
    rcases Token.stray_or_written hread with ⟨hfound, -⟩ | ⟨written, hwritten, hsplit⟩
    · exact absurd hfound hstray
    · obtain ⟨mark, body, hmark, hbody, rfl⟩ := hwritten
      refine ⟨[mark, mark], ?_, fun hends => absurd hends.symm Bool.false_ne_true⟩
      rw [hwithin.split, hsplit, List.cons_append, List.append_assoc, List.singleton_append,
        emptyQuotations_quotation hmark hbody, List.append_assoc]
  · rw [not_exists] at hquoted
    obtain ⟨written, hwritten, -, hsplit⟩ := hwithin.split_token hread hstray hquoted
    refine ⟨written, by rw [hsplit, List.append_assoc], ?_⟩
    intro hends
    cases token with
    | name _ | truth _ | number _ | quoted _ => cases hends
    | keyword word => exact .inr (Token.leading_of_read_keyword hread)
    | symbol mark =>
        obtain rfl := hwritten
        left
        apply EndsOutsideWord.append _ mark.text_toList_ne_nil
        exact fun d hd => (mark.mem_text d (List.mem_of_getLast? hd)).2
    | stray => exact absurd rfl hstray

/-- Behind a `not` that has no operand in front of it stands `in`. -/
theorem Within.in_of_not (hwithout : WithoutPrefixes whole)
    (hwithin : Within whole false before (c :: rest))
    (hread : Token.read false c rest = (.keyword .not, after)) :
    ((lexAfter false after).map Lexeme.token).head? = some (.keyword .in) := by
  obtain ⟨written, hwritten, hsplit, hwhole⟩ := hwithin.split_token hread Token.noConfusion
    (fun _ => Token.noConfusion)
  have hstops := Token.leading_of_read_keyword hread
  have hletters : ∀ d ∈ written, isNameContinue d = true := by
    intro d hd
    exact isNameContinue_of_isNameStart
      (isNameStart_of_map_toLower (Keyword.areSmallLetters_text .not) hwritten d hd)
  have hname : isNameContinue c = true := by
    cases written with
    | nil => cases hwritten
    | cons d tail =>
        obtain ⟨rfl, -⟩ := List.cons.inj hsplit
        exact hletters c List.mem_cons_self
  have hout : EndsOutsideWord before := by
    -- A word that went on here would have begun with a keyword, which is read to its end.
    apply (hwithin.word rfl).resolve_right
    intro hleading
    rw [hleading c rest rfl] at hname
    cases hname
  have hfront : frontWord (c :: rest) = "not".toList := by
    rw [hsplit, frontWord, takeWhile_append hletters hstops]
    exact hwritten
  have hnext := hwithout.negations before _ hwithin.split hout
    (by rw [frontWord_emptyQuotations, hfront])
  rw [frontWord_behind, hsplit, dropWhile_append hletters hstops] at hnext
  rw [← lexAfter_dropBlanks]
  exact head?_lexAfter_of_frontWord hnext false

/-- Where nothing in the text is a prefix, no token is one. -/
theorem Within.isUnprefixed (hwithout : WithoutPrefixes whole)
    (hwithin : Within whole afterOperand before (c :: rest))
    (hread : Token.read afterOperand c rest = (token, after)) (hstray : token ≠ .stray)
    (hunjoined : afterOperand = false → token = .keyword .not →
      ((lexAfter false after).map Lexeme.token).head? ≠ some (.keyword .in)) :
    token.IsUnprefixed afterOperand := by
  by_cases hquoted : ∃ text, token = .quoted text
  · obtain ⟨text, rfl⟩ := hquoted
    trivial
  rw [not_exists] at hquoted
  obtain ⟨written, hwritten, -, hwhole⟩ := hwithin.split_token hread hstray hquoted
  have hsigns : ∀ d ∈ written, d ≠ '+' ∧ d ≠ '-' ∧ d ≠ '~' := by
    intro d hd
    apply hwithout.signs
    simp [hwhole, hd]
  cases token with
  | number digits =>
      obtain ⟨rfl, hnumber⟩ := hwritten
      apply hnumber.isUnprefixed
      intro d hd
      simp [isSignMark, hsigns d hd]
  | keyword word =>
      cases word with
      | not =>
          cases afterOperand with
          | true => rfl
          | false => exact absurd (hwithin.in_of_not hwithout hread) (hunjoined rfl rfl)
      | _ => trivial
  | symbol mark =>
      obtain rfl := hwritten
      cases mark with
      | plus => exact absurd rfl (hsigns '+' (by simp [Symbol.text])).1
      | minus => exact absurd rfl (hsigns '-' (by simp [Symbol.text])).2.1
      | tilde => exact absurd rfl (hsigns '~' (by simp [Symbol.text])).2.2
      | power =>
          have hinfix : ['*', '*'] <:+: whole :=
            ⟨before, _, by rw [hwhole, List.append_assoc]; rfl⟩
          exact absurd hinfix hwithout.powers
      | _ => trivial
  | _ => trivial

end Token

theorem Within.unprefixed {whole : List Char} (hwithout : WithoutPrefixes whole)
    (afterOperand : Bool) (cs before : List Char) (hwithin : Within whole afterOperand before cs)
    (hplaced : Placed afterOperand ((lexAfter afterOperand cs).map Lexeme.token))
    (hunjoined : Unjoined afterOperand ((lexAfter afterOperand cs).map Lexeme.token)) :
    Unprefixed afterOperand ((lexAfter afterOperand cs).map Lexeme.token) := by
  induction afterOperand, cs using lexAfter.induct generalizing before with
  | case1 afterOperand =>
      rw [lexAfter_nil]
      trivial
  | case2 afterOperand c rest hblank ih =>
      rw [lexAfter_blank hblank] at hplaced hunjoined ⊢
      exact ih _ (hwithin.blank hblank) hplaced hunjoined
  | case3 afterOperand c rest hblank ih =>
      obtain ⟨token, after, hread⟩ : ∃ token after,
          Token.read afterOperand c rest = (token, after) := ⟨_, _, rfl⟩
      rw [lexAfter_token (Bool.not_eq_true _ ▸ hblank), hread] at hplaced hunjoined ⊢
      rw [hread] at ih
      have hstray : token ≠ .stray := by
        rintro rfl
        exact hplaced.1
      obtain ⟨front, hnext⟩ := hwithin.behind hread hstray
      refine ⟨?_, ih _ hnext hplaced.2 hunjoined.2⟩
      apply hwithin.isUnprefixed hwithout hread hstray
      rintro hafter rfl
      exact hunjoined.1 hafter rfl

/-! ## Whole texts -/

theorem unprefixed_of_prefixFree {text : String} {e : Expr}
    (hparse : Expr.parse text = .ok e) (hfree : PrefixFree text) :
    Unprefixed false ((lex text).map Lexeme.token) := by
  have hspelled := Expr.spelled_of_parse hparse
  have hstart : Within (emptyQuotations none text.toList) false [] text.toList :=
    ⟨rfl, fun _ => .inl (by simp [EndsOutsideWord])⟩
  exact Within.unprefixed hfree false text.toList [] hstart hspelled.operates.placed
    hspelled.phrase_unjoined

theorem nestingDepth_eq_mostOpen {text : String} {e : Expr}
    (hparse : Expr.parse text = .ok e) (hfree : PrefixFree text) :
    nestingDepth text = mostOpen 0 ((lex text).map Lexeme.token) := by
  have hspelled := Expr.spelled_of_parse hparse
  have hunprefixed := unprefixed_of_prefixFree hparse hfree
  have hflat : ({} : Nesting).Flat 0 := ⟨rfl, rfl, rfl, Nat.le_refl _⟩
  rw [nestingDepth_eq_foldl hspelled.operates.placed]
  rw [lex, ← map_fst_lexWords false false] at hunprefixed ⊢
  rw [hflat.foldl_stepToken (fun hends => absurd hends Bool.false_ne_true) hunprefixed]
  exact Nat.max_eq_right (Nat.zero_le _)

/-- The brackets of a text that is read stand in pairs.  Where the text has no sign, no
power and no `not` but in `not in` outside its quotations, its nesting is the number of
pairs that are open at once, and it is refused as too deep exactly where that exceeds
the limit. -/
theorem nestingDepth_eq_of_prefixFree {text : String} {e : Expr}
    (hparse : Expr.parse text = .ok e) (hfree : PrefixFree text) :
    Spelled (.expr .disjunction e) ((lex text).map Lexeme.token) ∧
    Nested (nestingDepth text) ((lex text).map Lexeme.token) ∧
    ∀ depth, Nested depth ((lex text).map Lexeme.token) →
      nestingDepth text = depth ∧
      ∀ limits : Limits, limits.check text = .error (.tooDeep limits.maxDepth) ↔
        text.length ≤ limits.maxLength ∧ limits.maxDepth < depth := by
  have hspelled := Expr.spelled_of_parse hparse
  have hmost := nestingDepth_eq_mostOpen hparse hfree
  obtain ⟨pairs, hpairs⟩ := hspelled.phrase_paired
  have hdepth : ∀ depth, Nested depth ((lex text).map Lexeme.token) →
      nestingDepth text = depth := by
    intro depth hnested
    rw [hmost, hnested.depth_eq]
  refine ⟨hspelled, ?_, ?_⟩
  · rw [hdepth pairs hpairs]
    exact hpairs
  · intro depth hnested
    refine ⟨hdepth depth hnested, ?_⟩
    intro limits
    rw [Limits.check_eq_tooDeep_iff, hdepth depth hnested]

/-- Brackets and a sign in a quotation, and `not in` between the operands. -/
theorem nestingDepth_eq_of_prefixFree_notIn :
    let text := "f(a[0]) not in ('(((+', (b, c))"
    PrefixFree text ∧
    ∃ e, Expr.parse text = .ok e ∧
      Nested 2 ((lex text).map Lexeme.token) ∧ nestingDepth text = 2 ∧
      ∀ limits : Limits, limits.check text = .error (.tooDeep limits.maxDepth) ↔
        text.length ≤ limits.maxLength ∧ limits.maxDepth < 2 := by
  intro text
  have hfree : PrefixFree text := by decide +kernel
  have hparse : Expr.parse text = .ok
      (.compare (.call (.name "f") [.subscript (.name "a") (.constant (.number "0"))]) [.notIn]
        [.tuple [.constant (.text "(((+"), .tuple [.name "b", .name "c"]]]) := by
    decide +kernel
  have hdepth : nestingDepth text = 2 := by decide +kernel
  obtain ⟨-, hnested, hlimits⟩ := nestingDepth_eq_of_prefixFree hparse hfree
  rw [hdepth] at hnested
  exact ⟨hfree, _, hparse, hnested, hdepth, (hlimits 2 hnested).2⟩

end RecordCondition
