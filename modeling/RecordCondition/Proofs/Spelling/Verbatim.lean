import RecordCondition.Proofs.Spelling.Numbers

/-!
# Tokens stand in the text

Except for stray text, what the lexer takes for a token is one of the ways to write
that token.  So a name that is found is a name and no reserved word, and a number has
the form of a number and is kept as it stands in the text.
-/

namespace RecordCondition

open Text

theorem quoted_of_splitQuotation {quote : Char} {cs text after : List Char}
    (hsplit : splitQuotation quote cs = some (text, after)) :
    ∃ body, Quoted quote text body ∧ cs = body ++ quote :: after := by
  fun_induction splitQuotation quote cs generalizing text after with
  | case1 => cases hsplit
  | case2 c rest ih =>
      obtain ⟨⟨inner, tail⟩, hinner, heq⟩ := Option.map_eq_some_iff.mp hsplit
      obtain ⟨rfl, rfl⟩ := Prod.mk.inj heq
      obtain ⟨body, hbody, rfl⟩ := ih hinner
      exact ⟨_, .escaped c hbody, rfl⟩
  | case3 rest _ =>
      obtain ⟨rfl, rfl⟩ := Prod.mk.inj (Option.some.inj hsplit)
      exact ⟨[], .nil, rfl⟩
  | case4 c rest hescape hquote ih =>
      obtain ⟨⟨inner, tail⟩, hinner, heq⟩ := Option.map_eq_some_iff.mp hsplit
      obtain ⟨rfl, rfl⟩ := Prod.mk.inj heq
      obtain ⟨body, hbody, rfl⟩ := ih hinner
      have hbackslash : c ≠ '\\' := by
        rintro rfl
        cases body with
        | nil => exact hescape _ _ rfl rfl
        | cons d body => exact hescape _ _ rfl rfl
      exact ⟨_, .plain hquote hbackslash hbody, rfl⟩

theorem Token.written_ofWord {word : List Char}
    (hstart : ∃ c rest, word = c :: rest ∧ isNameStart c = true)
    (hall : ∀ c ∈ word, isNameContinue c = true) : (Token.ofWord word).Written word := by
  unfold Token.ofWord
  split
  all_goals
    first
    | next heq =>
        have hletters := congrArg String.toList heq
        rw [String.toList_ofList] at hletters
        exact hletters
    | next hand hor hnot hin his htrue hfalse =>
        have hunreserved : String.ofList (word.map Char.toLower) ∉ reservedWords := by
          simp only [reservedWords, List.mem_cons, List.not_mem_nil, or_false, not_or]
          exact ⟨hand, hor, hnot, hin, his, htrue, hfalse⟩
        exact ⟨String.toList_ofList.symm, hstart, hall, hunreserved⟩

theorem IsUnsigned.isNumber {whole fraction exponent sign : List Char}
    (hunsigned : IsUnsigned whole fraction exponent) (hsign : IsSign sign) :
    IsNumber (sign ++ (whole ++ fraction ++ exponent)) :=
  ⟨sign, whole, fraction, exponent, rfl, hsign, hunsigned.nonempty, hunsigned.digits,
    hunsigned.fraction, hunsigned.exponent⟩

/-- The characters in front of what is left are a way to write the token.  Behind stray
text nothing is left. -/
theorem Token.stray_or_written {afterOperand : Bool} {c : Char} {rest after : List Char}
    {token : Token} (hread : Token.read afterOperand c rest = (token, after)) :
    (token = .stray ∧ after = []) ∨
      ∃ written, token.Written written ∧ c :: rest = written ++ after := by
  unfold Token.read at hread
  split at hread
  · next hstart =>
      obtain ⟨rfl, rfl⟩ := Prod.mk.inj hread
      right
      refine ⟨c :: rest.takeWhile isNameContinue, ?_, ?_⟩
      · apply Token.written_ofWord ⟨_, _, rfl, hstart⟩
        rw [List.forall_mem_cons]
        exact ⟨isNameContinue_of_isNameStart hstart,
          fun d hd => List.all_eq_true.mp List.all_takeWhile d hd⟩
      · rw [List.cons_append, List.takeWhile_append_dropWhile]
  split at hread
  · next hdigit =>
      obtain ⟨rfl, rfl⟩ := Prod.mk.inj hread
      have hstart : startsWithDigit (c :: rest) = true := hdigit
      obtain ⟨whole, fraction, exponent, hsplit, hunsigned⟩ := isUnsigned_splitNumber hstart
      refine Or.inr ⟨(splitNumber (c :: rest)).1, ⟨String.toList_ofList.symm, ?_⟩,
        (splitNumber_append _).symm⟩
      rw [hsplit]
      exact hunsigned.isNumber (Or.inl rfl)
  split at hread
  · next hsigned =>
      obtain ⟨rfl, rfl⟩ := Prod.mk.inj hread
      rw [Bool.and_eq_true, Bool.and_eq_true, Bool.or_eq_true, decide_eq_true_iff,
        decide_eq_true_iff] at hsigned
      obtain ⟨whole, fraction, exponent, hsplit, hunsigned⟩ :=
        isUnsigned_splitNumber hsigned.2
      refine Or.inr ⟨c :: (splitNumber rest).1, ⟨String.toList_ofList.symm, ?_⟩, ?_⟩
      · rw [hsplit]
        have hsign : IsSign [c] := Or.inr (hsigned.1.1.imp (congrArg fun d => [d])
          (congrArg fun d => [d]))
        exact hunsigned.isNumber hsign
      · rw [List.cons_append, splitNumber_append]
  split at hread
  · next hquote =>
      split at hread
      · next text after hsplit =>
          obtain ⟨rfl, rfl⟩ := Prod.mk.inj hread
          rw [Bool.or_eq_true, decide_eq_true_iff, decide_eq_true_iff] at hquote
          obtain ⟨body, hbody, rfl⟩ := quoted_of_splitQuotation hsplit
          rw [← String.toList_ofList (l := text)] at hbody
          exact Or.inr ⟨_, ⟨c, body, hquote, hbody, rfl⟩, by simp⟩
      · exact Or.inl ⟨(Prod.mk.inj hread).1.symm, (Prod.mk.inj hread).2.symm⟩
  · split at hread
    · next mark after hsymbol =>
        obtain ⟨rfl, rfl⟩ := Prod.mk.inj hread
        exact Or.inr ⟨_, rfl, (Symbol.text_append_of_read hsymbol).symm⟩
    · exact Or.inl ⟨(Prod.mk.inj hread).1.symm, (Prod.mk.inj hread).2.symm⟩

theorem Token.suffix_of_read {afterOperand : Bool} {c : Char} {rest after : List Char}
    {token : Token} (hread : Token.read afterOperand c rest = (token, after)) :
    after <:+ c :: rest := by
  rcases Token.stray_or_written hread with ⟨-, rfl⟩ | ⟨written, -, hsplit⟩
  · exact List.nil_suffix
  · exact ⟨written, hsplit.symm⟩

/-- Each token is written at the front of the text that it was found in, and that text
is the end of the whole. -/
theorem written_of_mem_lexAfter {afterOperand : Bool} {cs : List Char} {lexeme : Lexeme}
    (hmem : lexeme ∈ lexAfter afterOperand cs) (hstray : lexeme.token ≠ .stray) :
    ∃ written, lexeme.token.Written written ∧ written <+: lexeme.text ∧
      lexeme.text <:+ cs := by
  fun_induction lexAfter afterOperand cs with
  | case1 => cases hmem
  | case2 afterOperand c rest hblank ih =>
      obtain ⟨written, hwritten, hfront, hend⟩ := ih hmem
      exact ⟨written, hwritten, hfront, hend.trans (List.suffix_cons c rest)⟩
  | case3 afterOperand c rest hblank ih =>
      obtain ⟨token, after, hread⟩ : ∃ token after,
          Token.read afterOperand c rest = (token, after) := ⟨_, _, rfl⟩
      rw [hread] at hmem ih
      rcases List.mem_cons.mp hmem with rfl | hmem
      · rcases Token.stray_or_written hread with ⟨hfound, -⟩ | ⟨written, hwritten, hsplit⟩
        · exact absurd hfound hstray
        · exact ⟨written, hwritten, ⟨after, hsplit.symm⟩, List.suffix_refl _⟩
      · obtain ⟨written, hwritten, hfront, hend⟩ := ih hmem
        exact ⟨written, hwritten, hfront, hend.trans (Token.suffix_of_read hread)⟩

end RecordCondition
