import RecordCondition.Proofs.Spelling.Parsed
import RecordCondition.Proofs.Spelling.Respacing

/-!
# Where reading stops

A text that ends where a token ends has the tokens up to there and no others: no token
is longer in a longer text, except for stray text.  So a text that is refused is cut, at
the position that is reported, behind an expression that can be read on its own, or behind
signs that are followed by no expression.
-/

namespace RecordCondition

open Text

/-! ## Cutting what is left -/

/-- What is taken from a text is taken as well from a text that ends sooner, but not within
what is taken. -/
def TakesWithout (split : List Char → List Char × List Char) : Prop :=
  ∀ cs front back, (split cs).2 = front ++ back →
    split ((split cs).1 ++ front) = ((split cs).1, front)

theorem Leading.of_append {holds : Char → Prop} {front back : List Char}
    (hleading : Leading holds (front ++ back)) : Leading holds front := by
  rintro c tail rfl
  exact hleading c (tail ++ back) rfl

theorem takesWithout_span (p : Char → Bool) :
    TakesWithout fun cs => (cs.takeWhile p, cs.dropWhile p) := by
  intro cs front back hbehind
  have hall : ∀ c ∈ cs.takeWhile p, p c = true := List.all_eq_true.mp List.all_takeWhile
  have hleading : Leading (fun c => p c = false) (front ++ back) := by
    rw [← hbehind]
    exact leading_dropWhile p cs
  simp only [takeWhile_append hall hleading.of_append, dropWhile_append hall hleading.of_append]

theorem takesWithout_splitFraction : TakesWithout splitFraction := by
  intro cs front back hbehind
  by_cases hdot : ∃ rest, cs = '.' :: rest
  · obtain ⟨rest, rfl⟩ := hdot
    have hspan := takesWithout_span Char.isDigit rest front back hbehind
    simp only [Prod.mk.injEq] at hspan
    simp only [splitFraction, List.cons_append, hspan]
  · have hleading : Leading (· ≠ '.') cs := by
      rintro c tail rfl rfl
      exact hdot ⟨tail, rfl⟩
    rw [splitFraction_of_leading hleading] at hbehind ⊢
    subst hbehind
    exact splitFraction_of_leading hleading.of_append

theorem takesWithout_splitSign : TakesWithout splitSign := by
  intro cs front back hbehind
  by_cases hsign : ∃ c rest, cs = c :: rest ∧ (c = '+' ∨ c = '-')
  · obtain ⟨c, rest, rfl, rfl | rfl⟩ := hsign <;> rfl
  · have hleading : Leading (fun c => c ≠ '+' ∧ c ≠ '-') cs := by
      rintro c tail rfl
      exact not_or.mp fun hc => hsign ⟨c, tail, rfl, hc⟩
    rw [splitSign_of_leading hleading] at hbehind ⊢
    subst hbehind
    exact splitSign_of_leading hleading.of_append

theorem startsWithDigit_of_prefix {front : List Char} (hdigit : startsWithDigit front = true)
    (back : List Char) : startsWithDigit (front ++ back) = true := by
  cases front with
  | nil => cases hdigit
  | cons c tail => exact hdigit

theorem startsWithDigit_behind_sign {front : List Char}
    (hdigit : startsWithDigit (splitSign front).2 = true) (back : List Char) :
    startsWithDigit (splitSign (front ++ back)).2 = true := by
  cases front with
  | nil => cases hdigit
  | cons c tail =>
      have hbehind : (splitSign (c :: tail ++ back)).2 = (splitSign (c :: tail)).2 ++ back := by
        unfold splitSign
        split <;> simp_all
      rw [hbehind]
      exact startsWithDigit_of_prefix hdigit back

theorem takesWithout_splitExponent : TakesWithout splitExponent := by
  intro cs front back hbehind
  cases cs with
  | nil =>
      obtain ⟨rfl, -⟩ := List.append_eq_nil_iff.mp hbehind.symm
      rfl
  | cons c rest =>
      by_cases hexponent : (c = 'e' || c = 'E') && startsWithDigit (splitSign rest).2
      · have hdigit := (Bool.and_eq_true_iff.mp hexponent).2
        simp only [splitExponent, hexponent, if_true] at hbehind ⊢
        have hdigits := takesWithout_span Char.isDigit (splitSign rest).2 front back hbehind
        have hsign := takesWithout_splitSign rest
          ((splitSign rest).2.takeWhile Char.isDigit ++ front) back (by
            rw [List.append_assoc, ← hbehind, List.takeWhile_append_dropWhile])
        have hstart :
            startsWithDigit ((splitSign rest).2.takeWhile Char.isDigit ++ front) = true :=
          startsWithDigit_append (takeWhile_isDigit_ne_nil hdigit) (allDigits_takeWhile _)
        simp only [Prod.mk.injEq] at hdigits
        simp only [List.cons_append, List.append_assoc, hsign, hstart, hdigits,
          (Bool.and_eq_true_iff.mp hexponent).1, Bool.and_true, if_true]
      · simp only [splitExponent, hexponent] at hbehind ⊢
        cases front with
        | nil => rfl
        | cons d front =>
            obtain ⟨rfl, rfl⟩ := List.cons.inj hbehind
            have hnone :
                ((c = 'e' || c = 'E') && startsWithDigit (splitSign front).2) = false := by
              rw [Bool.eq_false_iff]
              intro hfound
              rw [Bool.and_eq_true] at hexponent hfound
              exact hexponent ⟨hfound.1, startsWithDigit_behind_sign hfound.2 back⟩
            simp [hnone]

theorem takesWithout_splitNumber : TakesWithout splitNumber := by
  intro cs front back hbehind
  have hexponent := takesWithout_splitExponent _ front back hbehind
  have hfraction := takesWithout_splitFraction (cs.dropWhile Char.isDigit)
    ((splitExponent (splitFraction (cs.dropWhile Char.isDigit)).2).1 ++ front) back (by
      rw [List.append_assoc, ← hbehind]
      exact (splitExponent_append _).symm)
  have hwhole := takesWithout_span Char.isDigit cs
    ((splitFraction (cs.dropWhile Char.isDigit)).1 ++
      ((splitExponent (splitFraction (cs.dropWhile Char.isDigit)).2).1 ++ front)) back (by
      rw [List.append_assoc, List.append_assoc, ← hbehind]
      exact ((congrArg _ (splitExponent_append _)).trans (splitFraction_append _)).symm)
  simp only [Prod.mk.injEq] at hwhole
  simp only [splitNumber, List.append_assoc, hwhole, hfraction, hexponent]

/-! ## Tokens -/

theorem Symbol.read_nil_of_read {c d : Char} {mark : Symbol}
    (hread : Symbol.read c [d] = some (mark, [d])) : Symbol.read c [] = some (mark, []) := by
  unfold Symbol.read at hread ⊢
  split at hread <;> simp_all

theorem Symbol.eq_nil_of_read {c : Char} {mark : Symbol} {after : List Char}
    (hread : Symbol.read c [] = some (mark, after)) : after = [] := by
  unfold Symbol.read at hread
  split at hread <;> simp_all

theorem Symbol.read_without {c : Char} {rest front back : List Char} {mark : Symbol}
    (hread : Symbol.read c rest = some (mark, front ++ back)) :
    ∃ kept, rest = kept ++ back ∧ Symbol.read c kept = some (mark, front) := by
  cases rest with
  | nil =>
      obtain ⟨rfl, rfl⟩ := List.append_eq_nil_iff.mp (Symbol.eq_nil_of_read hread)
      exact ⟨[], rfl, hread⟩
  | cons d tail =>
      rw [Symbol.read_cons, Option.map_eq_some_iff] at hread
      obtain ⟨⟨found, after⟩, hfound, heq⟩ := hread
      obtain ⟨rfl, hbehind⟩ := Prod.mk.inj heq
      rcases Symbol.read_singleton hfound with rfl | rfl
      · refine ⟨d :: front, congrArg (d :: ·) hbehind, ?_⟩
        rw [Symbol.read_cons, hfound]
        rfl
      · cases front with
        | nil => exact ⟨[], hbehind, Symbol.read_nil_of_read hfound⟩
        | cons e front =>
            obtain ⟨rfl, rfl⟩ := List.cons.inj hbehind
            refine ⟨d :: front, rfl, ?_⟩
            rw [Symbol.read_cons, hfound]
            rfl

theorem exists_splitNumber_eq_cons {c : Char} (hdigit : c.isDigit = true) (rest : List Char) :
    ∃ digits, (splitNumber (c :: rest)).1 = c :: digits := by
  unfold splitNumber
  rw [List.takeWhile_cons_of_pos hdigit]
  exact ⟨_, rfl⟩

/-- No token but stray text is another one in a text that ends sooner. -/
theorem Token.read_without {afterOperand : Bool} {c : Char} {rest front back : List Char}
    {token : Token} (hread : Token.read afterOperand c rest = (token, front ++ back))
    (hstray : token ≠ .stray) :
    ∃ kept, rest = kept ++ back ∧ Token.read afterOperand c kept = (token, front) := by
  unfold Token.read at hread
  split at hread
  · next hstart =>
      obtain ⟨rfl, hbehind⟩ := Prod.mk.inj hread
      have hspan := takesWithout_span isNameContinue rest front back hbehind
      simp only [Prod.mk.injEq] at hspan
      refine ⟨rest.takeWhile isNameContinue ++ front, ?_, ?_⟩
      · rw [List.append_assoc, ← hbehind, List.takeWhile_append_dropWhile]
      · rw [Token.read, if_pos hstart, hspan.1, hspan.2]
  next hstart =>
  split at hread
  · next hdigit =>
      obtain ⟨rfl, hbehind⟩ := Prod.mk.inj hread
      have hnumber := takesWithout_splitNumber (c :: rest) front back hbehind
      have hwhole := splitNumber_append (c :: rest)
      obtain ⟨digits, hdigits⟩ := exists_splitNumber_eq_cons hdigit rest
      rw [hdigits, hbehind, List.cons_append, List.cons.injEq] at hwhole
      rw [hdigits, List.cons_append] at hnumber
      refine ⟨digits ++ front, ?_, ?_⟩
      · rw [List.append_assoc, hwhole.2]
      · rw [Token.read, if_neg hstart, if_pos hdigit, hnumber, hdigits]
  next hdigit =>
  split at hread
  · next hsigned =>
      obtain ⟨rfl, hbehind⟩ := Prod.mk.inj hread
      have hnumber := takesWithout_splitNumber rest front back hbehind
      refine ⟨(splitNumber rest).1 ++ front, ?_, ?_⟩
      · rw [List.append_assoc, ← hbehind, splitNumber_append]
      · have hkept : startsWithDigit ((splitNumber rest).1 ++ front) = true := by
          have hdigit := (Bool.and_eq_true_iff.mp hsigned).2
          cases rest with
          | nil => cases hdigit
          | cons d tail =>
              obtain ⟨digits, hdigits⟩ := exists_splitNumber_eq_cons hdigit tail
              rw [hdigits]
              exact hdigit
        rw [Bool.and_eq_true] at hsigned
        rw [Token.read, if_neg hstart, if_neg hdigit, hkept, hsigned.1, hnumber]
        rfl
  next hsigned =>
  split at hread
  · next hquote =>
      rw [Bool.or_eq_true, decide_eq_true_iff, decide_eq_true_iff] at hquote
      have hmark : IsMark c := hquote
      split at hread
      · next text after hsplit =>
          obtain ⟨rfl, rfl⟩ := Prod.mk.inj hread
          obtain ⟨body, hquoted, rfl⟩ := quoted_of_splitQuotation hsplit
          exact ⟨body ++ c :: front, by simp, (read_quotation hmark hquoted afterOperand front).2⟩
      · exact absurd (Prod.mk.inj hread).1.symm hstray
  next hquote =>
  split at hread
  · next mark after hsymbol =>
      obtain ⟨rfl, rfl⟩ := Prod.mk.inj hread
      obtain ⟨kept, rfl, hkept⟩ := Symbol.read_without hsymbol
      refine ⟨kept, rfl, ?_⟩
      have hunsigned :
          ((c = '+' || c = '-') && !afterOperand && startsWithDigit kept) = false := by
        rw [Bool.eq_false_iff]
        intro hfound
        rw [Bool.and_eq_true] at hsigned hfound
        exact hsigned ⟨hfound.1, startsWithDigit_of_prefix hfound.2 back⟩
      rw [Token.read, if_neg hstart, if_neg hdigit, if_neg (by rw [hunsigned]; decide),
        if_neg hquote, hkept]
  · exact absurd (Prod.mk.inj hread).1.symm hstray

/-! ## Texts -/

/-- A text that is cut where a token begins keeps the tokens in front of that one. -/
theorem exists_front_of_lexAfter {afterOperand : Bool} {cs : List Char}
    {before behind : List Lexeme} {lexeme : Lexeme}
    (hlex : lexAfter afterOperand cs = before ++ lexeme :: behind)
    (hstray : ∀ taken ∈ before, taken.token ≠ .stray) :
    ∃ front, cs = front ++ lexeme.text ∧
      (lexAfter afterOperand front).map Lexeme.token = before.map Lexeme.token := by
  induction afterOperand, cs using lexAfter.induct generalizing before with
  | case1 afterOperand =>
      rw [lexAfter_nil] at hlex
      exact absurd hlex (by simp)
  | case2 afterOperand c rest hblank ih =>
      rw [lexAfter_blank hblank] at hlex
      obtain ⟨front, rfl, htokens⟩ := ih hlex hstray
      refine ⟨c :: front, rfl, ?_⟩
      rw [lexAfter_blank hblank]
      exact htokens
  | case3 afterOperand c rest hblank ih =>
      rw [Bool.not_eq_true] at hblank
      rw [lexAfter_token hblank] at hlex
      cases before with
      | nil =>
          obtain ⟨rfl, -⟩ := List.cons.inj hlex
          exact ⟨[], rfl, congrArg _ (lexAfter_nil afterOperand)⟩
      | cons first before =>
          obtain ⟨rfl, hbehind⟩ := List.cons.inj hlex
          rw [List.forall_mem_cons] at hstray
          obtain ⟨front, hfront, htokens⟩ := ih hbehind hstray.2
          obtain ⟨kept, hkept, hread⟩ :=
            Token.read_without (Prod.ext rfl hfront) hstray.1
          refine ⟨c :: kept, congrArg (c :: ·) hkept, ?_⟩
          rw [lexAfter_token hblank, hread, List.map_cons, List.map_cons, htokens]

/-- A text whose tokens are signs has nothing else between its blanks. -/
theorem blank_or_sign_of_lexAfter {afterOperand : Bool} {cs : List Char}
    (hsigns : ∀ lexeme ∈ lexAfter afterOperand cs, ∃ op, lexeme.token.prefixSign = some op) :
    ∀ c ∈ cs, isBlank c = true ∨ c = '-' ∨ c = '+' ∨ c = '~' := by
  induction afterOperand, cs using lexAfter.induct with
  | case1 afterOperand => exact fun c hc => absurd hc List.not_mem_nil
  | case2 afterOperand c rest hblank ih =>
      rw [lexAfter_blank hblank] at hsigns
      exact List.forall_mem_cons.mpr ⟨Or.inl hblank, ih hsigns⟩
  | case3 afterOperand c rest hblank ih =>
      rw [Bool.not_eq_true] at hblank
      rw [lexAfter_token hblank, List.forall_mem_cons] at hsigns
      obtain ⟨⟨op, hop⟩, hbehind⟩ := hsigns
      obtain ⟨hop, htoken⟩ := Token.prefixSign_eq_some_iff.mp hop
      obtain ⟨token, after, hread⟩ : ∃ token after,
          Token.read afterOperand c rest = (token, after) := ⟨_, _, rfl⟩
      rw [hread] at htoken hbehind ih
      simp only at htoken
      subst htoken
      rcases Token.stray_or_written hread with ⟨hstray, -⟩ | ⟨written, hwritten, hsplit⟩
      · cases op <;> cases hstray
      · cases op with
        | not => exact absurd rfl hop
        | _ =>
            change written = _ at hwritten
            rw [hwritten] at hsplit
            obtain ⟨rfl, rfl⟩ := List.cons.inj hsplit
            exact List.forall_mem_cons.mpr ⟨by decide, ih hbehind⟩

theorem utf8ByteSize_ofList (cs : List Char) :
    (String.ofList cs).utf8ByteSize = utf8Size cs := by
  induction cs with
  | nil => rfl
  | cons c cs ih =>
      rw [String.ofList_cons, String.utf8ByteSize_append, String.utf8ByteSize_singleton, ih,
        utf8Size_cons]

/-- The position before some tokens is the size of a text with the other tokens. -/
theorem exists_text_before {text : String} {before behind : List Lexeme}
    (hlex : lex text = before ++ behind) (hstray : ∀ taken ∈ before, taken.token ≠ .stray) :
    ∃ front back : String, text = front ++ back ∧
      front.utf8ByteSize = positionBefore text behind.length ∧
      (lex front).map Lexeme.token = before.map Lexeme.token := by
  have hdrop : (lex text).drop ((lex text).length - behind.length) = behind := by
    rw [hlex, List.length_append, Nat.add_sub_cancel, List.drop_left]
  unfold positionBefore
  simp only [hdrop]
  cases behind with
  | nil =>
      rw [List.append_nil] at hlex
      exact ⟨text, "", String.append_empty.symm, rfl, congrArg _ hlex⟩
  | cons lexeme behind =>
      obtain ⟨front, htext, htokens⟩ := exists_front_of_lexAfter hlex hstray
      have hwhole : text = String.ofList front ++ String.ofList lexeme.text := by
        rw [← String.ofList_append, ← htext, String.ofList_toList]
      refine ⟨_, _, hwhole, ?_, ?_⟩
      · have hsize := congrArg String.utf8ByteSize hwhole
        rw [String.utf8ByteSize_append, utf8ByteSize_ofList lexeme.text] at hsize
        simp only
        omega
      · rw [lex, String.toList_ofList]
        exact htokens

/-! ## The position of an error -/

/-- The tokens of a text that is refused fall into those in front of the reported position
and those behind it, and the former spell an expression or are signs. -/
theorem unread_cases (tokens : List Token) :
    ∃ taken, tokens = taken ++ unread tokens ∧
      ((∃ value, Spelled (.expr .disjunction value) taken) ∨
        ∀ token ∈ taken, ∃ op, token.prefixSign = some op) := by
  unfold unread
  cases hread : readExpression tokens with
  | some result =>
      obtain ⟨taken, htokens, hspelled⟩ := expression_takes _ _ _ _ hread
      exact ⟨taken, htokens, Or.inl ⟨_, hspelled⟩⟩
  | none =>
      obtain ⟨htokens, hsigns⟩ := signs_append tokens
      refine ⟨_, htokens, Or.inr ?_⟩
      intro token htoken
      obtain ⟨op, hop, rfl⟩ := List.mem_map.mp htoken
      exact ⟨op, Token.prefixSign_eq_some_iff.mpr ⟨hsigns op hop, rfl⟩⟩

theorem position_of_parse {text : String} {e : ParseError} (hparse : Expr.parse text = .error e) :
    e.position = positionBefore text (unread ((lex text).map Lexeme.token)).length := by
  unfold Expr.parse at hparse
  dsimp only at hparse
  split at hparse
  · cases hparse
  · exact (congrArg ParseError.position (Except.error.inj hparse)).symm

/-- The position at which a text is refused lies in the text and cuts no character, and the
text in front of it is an expression of its own or nothing but blanks and signs. -/
theorem Expr.parse_front_of_error {text : String} {e : ParseError}
    (hparse : Expr.parse text = .error e) :
    e.position ≤ text.utf8ByteSize ∧ String.Pos.Raw.IsValid text ⟨e.position⟩ ∧
    ∃ front back : String, text = front ++ back ∧ front.utf8ByteSize = e.position ∧
      ((∃ value, Expr.parse front = .ok value) ∨
        ∀ c ∈ front.toList, isBlank c = true ∨ c = '-' ∨ c = '+' ∨ c = '~') := by
  obtain ⟨taken, htokens, htaken⟩ := unread_cases ((lex text).map Lexeme.token)
  obtain ⟨before, behind, hlex, hbefore, hbehind⟩ := List.map_eq_append_iff.mp htokens
  have hposition := position_of_parse hparse
  rw [← hbehind, List.length_map] at hposition
  have hstray : ∀ lexeme ∈ before, lexeme.token ≠ .stray := by
    intro lexeme hmem
    have htoken : lexeme.token ∈ taken := hbefore ▸ List.mem_map_of_mem hmem
    rcases htaken with ⟨value, hspelled⟩ | hsigns
    · exact hspelled.operates.placed.ne_stray _ htoken
    · obtain ⟨op, hop⟩ := hsigns _ htoken
      intro heq
      rw [heq] at hop
      cases hop
  obtain ⟨front, back, htext, hsize, hfront⟩ := exists_text_before hlex hstray
  rw [hbefore] at hfront
  rw [← hposition] at hsize
  refine ⟨?_, ?_, front, back, htext, hsize, ?_⟩
  · rw [htext, String.utf8ByteSize_append]
    omega
  · exact String.Pos.Raw.isValid_iff_exists_append.mpr ⟨front, back, htext, by rw [← hsize]; rfl⟩
  · rcases htaken with ⟨value, hspelled⟩ | hsigns
    · rw [← hfront] at hspelled
      exact Or.inl ⟨value, Expr.parse_eq_ok_iff.mpr hspelled⟩
    · right
      have hlexed : ∀ lexeme ∈ lexAfter false front.toList,
          ∃ op, lexeme.token.prefixSign = some op := by
        intro lexeme hmem
        apply hsigns
        rw [← hfront]
        exact List.mem_map_of_mem hmem
      exact blank_or_sign_of_lexAfter hlexed

theorem parse_unfinished : Expr.parse "é < 1e5 and -(" = .error ⟨9⟩ := by
  decide +kernel

/-- The second operand of a junction is missing, so the text is cut in front of the `and`,
behind a blank. -/
theorem Expr.parse_front_of_unfinished :
    let text := "é < 1e5 and -("
    Expr.parse text = .error ⟨9⟩ ∧ 9 ≤ text.utf8ByteSize ∧
      String.Pos.Raw.IsValid text ⟨9⟩ ∧
      ∃ front back : String, text = front ++ back ∧ front.utf8ByteSize = 9 ∧
        ((∃ value, Expr.parse front = .ok value) ∨
          ∀ c ∈ front.toList, isBlank c = true ∨ c = '-' ∨ c = '+' ∨ c = '~') := by
  intro text
  exact ⟨parse_unfinished, Expr.parse_front_of_error parse_unfinished⟩

end RecordCondition
