import RecordCondition.Proofs.Spelling.RoundTrip
import RecordCondition.Proofs.Spelling.Verbatim

/-!
# Runs of blanks are interchangeable

Outside quotations a run of blanks may be replaced by any other run.  The tokens stay
the same, since no token but a quotation takes a blank, and a token is kept apart from
the next one by any blank as well as by another.
-/

namespace RecordCondition

open Text

/-! ## Replacing runs of blanks -/

def IsMark (c : Char) : Prop :=
  c = '\'' ∨ c = '"'

instance (c : Char) : Decidable (IsMark c) :=
  inferInstanceAs (Decidable (c = '\'' ∨ c = '"'))

/-- A character that neither separates tokens nor bounds a quotation. -/
def IsPlain (c : Char) : Prop :=
  isBlank c = false ∧ ¬ IsMark c

instance (c : Char) : Decidable (IsPlain c) :=
  inferInstanceAs (Decidable (isBlank c = false ∧ ¬ IsMark c))

def IsBlankRun (cs : List Char) : Prop :=
  cs ≠ [] ∧ ∀ c ∈ cs, isBlank c = true

/-- No quotation that begins in front of the characters ends among them. -/
def Unclosed (mark : Char) (cs : List Char) : Prop :=
  ∀ text body after, Quoted mark text body → cs ≠ body ++ mark :: after

/-- Runs of blanks are replaced wherever they stand. -/
inductive Reblanked : List Char → List Char → Prop
  | nil : Reblanked [] []
  | same (c : Char) {cs ds : List Char} : Reblanked cs ds → Reblanked (c :: cs) (c :: ds)
  | blanks {before after cs ds : List Char} :
      IsBlankRun before → IsBlankRun after → Reblanked cs ds →
      Reblanked (before ++ cs) (after ++ ds)

/-- Runs of blanks are replaced outside quotations.  A mark without its counterpart
begins no quotation. -/
inductive Respaced : List Char → List Char → Prop
  | nil : Respaced [] []
  | plain {c : Char} {cs ds : List Char} :
      IsPlain c → Respaced cs ds → Respaced (c :: cs) (c :: ds)
  | blanks {before after cs ds : List Char} :
      IsBlankRun before → IsBlankRun after → Respaced cs ds →
      Respaced (before ++ cs) (after ++ ds)
  | quotation {mark : Char} {text body cs ds : List Char} :
      IsMark mark → Quoted mark text body → Respaced cs ds →
      Respaced (mark :: (body ++ mark :: cs)) (mark :: (body ++ mark :: ds))
  | unclosed {mark : Char} {cs ds : List Char} :
      IsMark mark → Unclosed mark cs → Reblanked cs ds →
      Respaced (mark :: cs) (mark :: ds)

/-! ## Marks -/

theorem IsMark.ne_backslash {mark : Char} (hmark : IsMark mark) : mark ≠ '\\' := by
  rcases hmark with rfl | rfl <;> decide

theorem IsMark.isBlank_eq_false {mark : Char} (hmark : IsMark mark) :
    isBlank mark = false := by
  rcases hmark with rfl | rfl <;> decide

theorem isSome_splitQuotation_escape (mark c : Char) (cs : List Char) :
    (splitQuotation mark ('\\' :: c :: cs)).isSome = (splitQuotation mark cs).isSome := by
  rw [splitQuotation, Option.isSome_map]

theorem isSome_splitQuotation_plain {mark c : Char} (hc : c ≠ '\\') (hne : c ≠ mark)
    (cs : List Char) :
    (splitQuotation mark (c :: cs)).isSome = (splitQuotation mark cs).isSome := by
  rw [splitQuotation, if_neg hne, Option.isSome_map]
  exact fun _ _ heq => absurd heq hc

theorem isSome_splitQuotation_blanks {mark : Char} (hmark : IsMark mark)
    {blanks : List Char} (hblanks : ∀ c ∈ blanks, isBlank c = true) (cs : List Char) :
    (splitQuotation mark (blanks ++ cs)).isSome = (splitQuotation mark cs).isSome := by
  induction blanks with
  | nil => rfl
  | cons c blanks ih =>
      rw [List.forall_mem_cons] at hblanks
      have hc : c ≠ '\\' := by
        rintro rfl
        exact absurd hblanks.1 (by decide)
      have hne : c ≠ mark := by
        rintro rfl
        rw [hmark.isBlank_eq_false] at hblanks
        exact absurd hblanks.1 (by decide)
      rw [List.cons_append, isSome_splitQuotation_plain hc hne, ih hblanks.2]

/-- Behind a backslash as well, where the first blank of a run is an escaped one. -/
theorem Reblanked.isSome_splitQuotation {mark : Char} (hmark : IsMark mark)
    {cs ds : List Char} (hreblanked : Reblanked cs ds) :
    (splitQuotation mark cs).isSome = (splitQuotation mark ds).isSome ∧
      (splitQuotation mark ('\\' :: cs)).isSome =
        (splitQuotation mark ('\\' :: ds)).isSome := by
  induction hreblanked with
  | nil => exact ⟨rfl, rfl⟩
  | same c _ ih =>
      refine ⟨?_, ?_⟩
      · by_cases hc : c = '\\'
        · rw [hc]
          exact ih.2
        by_cases hne : c = mark
        · subst hne
          simp [splitQuotation, hc]
        · rw [isSome_splitQuotation_plain hc hne, isSome_splitQuotation_plain hc hne, ih.1]
      · rw [isSome_splitQuotation_escape, isSome_splitQuotation_escape, ih.1]
  | @blanks before after cs ds hbefore hafter _ ih =>
      refine ⟨?_, ?_⟩
      · rw [isSome_splitQuotation_blanks hmark hbefore.2,
          isSome_splitQuotation_blanks hmark hafter.2, ih.1]
      · obtain ⟨b, before, rfl⟩ := List.exists_cons_of_ne_nil hbefore.1
        obtain ⟨a, after, rfl⟩ := List.exists_cons_of_ne_nil hafter.1
        rw [List.cons_append, List.cons_append, isSome_splitQuotation_escape,
          isSome_splitQuotation_escape,
          isSome_splitQuotation_blanks hmark (List.forall_mem_cons.mp hbefore.2).2,
          isSome_splitQuotation_blanks hmark (List.forall_mem_cons.mp hafter.2).2, ih.1]

theorem unclosed_iff {mark : Char} (hmark : IsMark mark) {cs : List Char} :
    Unclosed mark cs ↔ splitQuotation mark cs = none := by
  constructor
  · intro hunclosed
    cases hsplit : splitQuotation mark cs with
    | none => rfl
    | some pair =>
        obtain ⟨body, hquoted, heq⟩ := quoted_of_splitQuotation hsplit
        exact absurd heq (hunclosed _ _ _ hquoted)
  · rintro hnone text body after hquoted rfl
    rw [splitQuotation_quoted hmark.ne_backslash hquoted] at hnone
    cases hnone

theorem Reblanked.unclosed {mark : Char} (hmark : IsMark mark) {cs ds : List Char}
    (hreblanked : Reblanked cs ds) (hunclosed : Unclosed mark cs) : Unclosed mark ds := by
  rw [unclosed_iff hmark, ← Option.isNone_iff_eq_none, ← Option.not_isSome] at hunclosed ⊢
  rw [← (hreblanked.isSome_splitQuotation hmark).1]
  exact hunclosed

theorem isBlankRun_singleton {c : Char} (hblank : isBlank c = true) : IsBlankRun [c] :=
  ⟨List.cons_ne_nil _ _, List.forall_mem_singleton.mpr hblank⟩

theorem Reblanked.refl (cs : List Char) : Reblanked cs cs := by
  induction cs with
  | nil => exact .nil
  | cons c cs ih => exact .same c ih

/-- Every text is cut into plain characters, blanks and quotations in some way. -/
theorem Respaced.refl (cs : List Char) : Respaced cs cs := by
  cases cs with
  | nil => exact .nil
  | cons c rest =>
      by_cases hblank : isBlank c = true
      · have hrun := isBlankRun_singleton hblank
        exact .blanks hrun hrun (Respaced.refl rest)
      by_cases hmark : IsMark c
      · cases hsplit : splitQuotation c rest with
        | none => exact .unclosed hmark ((unclosed_iff hmark).mpr hsplit) (.refl rest)
        | some pair =>
            obtain ⟨body, hquoted, heq⟩ := quoted_of_splitQuotation hsplit
            have hshorter := splitQuotation_length hsplit
            rw [heq]
            exact .quotation hmark hquoted (Respaced.refl pair.2)
      · exact .plain ⟨by simpa using hblank, hmark⟩ (Respaced.refl rest)
  termination_by cs.length
  decreasing_by
    all_goals simp only [List.length_cons]
    all_goals omega

/-! ## The front of a respaced text -/

theorem isPlain_of_isNameContinue {c : Char} (hname : isNameContinue c = true) :
    IsPlain c := by
  refine ⟨isBlank_eq_false_of_isNameContinue hname, ?_⟩
  rintro (rfl | rfl) <;> exact absurd hname (by decide)

theorem isPlain_of_isDigit {c : Char} (hdigit : c.isDigit = true) : IsPlain c :=
  isPlain_of_isNameContinue (isNameContinue_of_isDigit hdigit)

theorem IsBlankRun.leading {cs : List Char} (hrun : IsBlankRun cs) (rest : List Char) :
    Leading (fun c => ¬ IsPlain c) (cs ++ rest) := by
  obtain ⟨c, cs, rfl⟩ := List.exists_cons_of_ne_nil hrun.1
  have hblank : isBlank c = true := hrun.2 c List.mem_cons_self
  exact Leading.cons (fun hplain => by simp [hplain.1] at hblank) _

/-- Both texts begin with the same plain character, or neither begins with one. -/
theorem Respaced.plain_or_stop {cs ds : List Char} (hrespaced : Respaced cs ds) :
    (∃ c tail tail', IsPlain c ∧ cs = c :: tail ∧ ds = c :: tail' ∧ Respaced tail tail') ∨
      (Leading (fun c => ¬ IsPlain c) cs ∧ Leading (fun c => ¬ IsPlain c) ds) := by
  cases hrespaced with
  | nil => exact Or.inr ⟨Leading.nil _, Leading.nil _⟩
  | plain hc htail => exact Or.inl ⟨_, _, _, hc, rfl, rfl, htail⟩
  | blanks hbefore hafter _ => exact Or.inr ⟨hbefore.leading _, hafter.leading _⟩
  | quotation hmark _ _ | unclosed hmark _ _ =>
      exact Or.inr ⟨Leading.cons (fun hplain => hplain.2 hmark) _,
        Leading.cons (fun hplain => hplain.2 hmark) _⟩

/-- The same is split off from two texts, and what is left of them is respaced. -/
structure SplitAlike {α : Type} (first second : α × List Char) : Prop where
  front : first.1 = second.1
  behind : Respaced first.2 second.2

variable {cs ds : List Char}

theorem Respaced.span {p : Char → Bool} (hp : ∀ c, p c = true → IsPlain c)
    {cs ds : List Char} (hrespaced : Respaced cs ds) :
    SplitAlike (cs.takeWhile p, cs.dropWhile p) (ds.takeWhile p, ds.dropWhile p) := by
  rcases hrespaced.plain_or_stop with ⟨c, tail, tail', hc, rfl, rfl, htail⟩ | ⟨hcs, hds⟩
  · by_cases hholds : p c = true
    · have hsplit := Respaced.span hp htail
      simp only [List.takeWhile_cons_of_pos hholds, List.dropWhile_cons_of_pos hholds]
      exact ⟨congrArg (c :: ·) hsplit.front, hsplit.behind⟩
    · simp only [List.takeWhile_cons_of_neg hholds, List.dropWhile_cons_of_neg hholds]
      exact ⟨rfl, hrespaced⟩
  · have hstops : ∀ c, ¬ IsPlain c → p c = false := by
      intro c hc
      exact Bool.eq_false_iff.mpr fun hholds => hc (hp c hholds)
    have hnone : ∀ c ∈ ([] : List Char), p c = true := by simp
    have hfirst := hcs.mono hstops
    have hsecond := hds.mono hstops
    rw [← List.nil_append cs, ← List.nil_append ds, takeWhile_append hnone hfirst,
      takeWhile_append hnone hsecond, dropWhile_append hnone hfirst,
      dropWhile_append hnone hsecond]
    exact ⟨rfl, hrespaced⟩
  termination_by cs.length

/-! ## Numbers -/

theorem ne_of_not_isPlain {c d : Char} (hc : ¬ IsPlain c) (hd : IsPlain d) : c ≠ d := by
  rintro rfl
  exact hc hd

theorem splitFraction_of_leading (hleading : Leading (· ≠ '.') cs) :
    splitFraction cs = ([], cs) := by
  cases cs with
  | nil => rfl
  | cons c tail =>
      have hc := hleading c tail rfl
      simp [splitFraction, hc]

theorem Respaced.splitFraction (hrespaced : Respaced cs ds) :
    SplitAlike (RecordCondition.splitFraction cs) (RecordCondition.splitFraction ds) := by
  rcases hrespaced.plain_or_stop with ⟨c, tail, tail', hc, rfl, rfl, htail⟩ | ⟨hcs, hds⟩
  · by_cases hdot : c = '.'
    · subst hdot
      have hsplit := htail.span fun _ => isPlain_of_isDigit
      exact ⟨congrArg ('.' :: ·) hsplit.front, hsplit.behind⟩
    · rw [splitFraction_of_leading (Leading.cons hdot _),
        splitFraction_of_leading (Leading.cons hdot _)]
      exact ⟨rfl, hrespaced⟩
  · have hdot : ∀ c, ¬ IsPlain c → c ≠ '.' := fun c hc => ne_of_not_isPlain hc (by decide)
    rw [splitFraction_of_leading (hcs.mono hdot), splitFraction_of_leading (hds.mono hdot)]
    exact ⟨rfl, hrespaced⟩

theorem splitSign_of_leading (hleading : Leading (fun c => c ≠ '+' ∧ c ≠ '-') cs) :
    splitSign cs = ([], cs) :=
  splitSign_append_rest (Or.inl rfl) hleading

theorem Respaced.splitSign (hrespaced : Respaced cs ds) :
    SplitAlike (RecordCondition.splitSign cs) (RecordCondition.splitSign ds) := by
  rcases hrespaced.plain_or_stop with ⟨c, tail, tail', hc, rfl, rfl, htail⟩ | ⟨hcs, hds⟩
  · by_cases hplus : c = '+'
    · subst hplus
      exact ⟨rfl, htail⟩
    by_cases hminus : c = '-'
    · subst hminus
      exact ⟨rfl, htail⟩
    · rw [splitSign_of_leading (Leading.cons ⟨hplus, hminus⟩ _),
        splitSign_of_leading (Leading.cons ⟨hplus, hminus⟩ _)]
      exact ⟨rfl, hrespaced⟩
  · have hsign : ∀ c, ¬ IsPlain c → c ≠ '+' ∧ c ≠ '-' := fun c hc =>
      ⟨ne_of_not_isPlain hc (by decide), ne_of_not_isPlain hc (by decide)⟩
    rw [splitSign_of_leading (hcs.mono hsign), splitSign_of_leading (hds.mono hsign)]
    exact ⟨rfl, hrespaced⟩

theorem startsWithDigit_of_leading (hleading : Leading (fun c => c.isDigit = false) cs) :
    startsWithDigit cs = false := by
  cases cs with
  | nil => rfl
  | cons c tail => exact hleading c tail rfl

theorem isDigit_eq_false_of_not_isPlain (c : Char) (hc : ¬ IsPlain c) :
    c.isDigit = false :=
  Bool.eq_false_iff.mpr fun hdigit => hc (isPlain_of_isDigit hdigit)

theorem Respaced.startsWithDigit (hrespaced : Respaced cs ds) :
    RecordCondition.startsWithDigit cs = RecordCondition.startsWithDigit ds := by
  rcases hrespaced.plain_or_stop with ⟨c, tail, tail', -, rfl, rfl, -⟩ | ⟨hcs, hds⟩
  · rfl
  · rw [startsWithDigit_of_leading (hcs.mono isDigit_eq_false_of_not_isPlain),
      startsWithDigit_of_leading (hds.mono isDigit_eq_false_of_not_isPlain)]

theorem splitExponent_of_leading (hleading : Leading (fun c => c ≠ 'e' ∧ c ≠ 'E') cs) :
    splitExponent cs = ([], cs) := by
  cases cs with
  | nil => rfl
  | cons c tail =>
      have hc := hleading c tail rfl
      simp [splitExponent, hc]

theorem Respaced.splitExponent (hrespaced : Respaced cs ds) :
    SplitAlike (RecordCondition.splitExponent cs) (RecordCondition.splitExponent ds) := by
  rcases hrespaced.plain_or_stop with ⟨c, tail, tail', hc, rfl, rfl, htail⟩ | ⟨hcs, hds⟩
  · have hsign := htail.splitSign
    obtain ⟨hdigits, hbehind⟩ := hsign.behind.span (p := Char.isDigit)
      fun _ => isPlain_of_isDigit
    dsimp only at hdigits hbehind
    simp only [RecordCondition.splitExponent, hsign.behind.startsWithDigit]
    split
    · refine ⟨?_, hbehind⟩
      dsimp only
      rw [hsign.front, hdigits]
    · exact ⟨rfl, hrespaced⟩
  · have hmark : ∀ c, ¬ IsPlain c → c ≠ 'e' ∧ c ≠ 'E' := fun c hc =>
      ⟨ne_of_not_isPlain hc (by decide), ne_of_not_isPlain hc (by decide)⟩
    rw [splitExponent_of_leading (hcs.mono hmark), splitExponent_of_leading (hds.mono hmark)]
    exact ⟨rfl, hrespaced⟩

theorem Respaced.splitNumber (hrespaced : Respaced cs ds) :
    SplitAlike (RecordCondition.splitNumber cs) (RecordCondition.splitNumber ds) := by
  obtain ⟨hwhole, hbehind⟩ := hrespaced.span (p := Char.isDigit) fun _ => isPlain_of_isDigit
  dsimp only at hwhole hbehind
  have hfraction := hbehind.splitFraction
  have hexponent := hfraction.behind.splitExponent
  refine ⟨?_, hexponent.behind⟩
  simp only [RecordCondition.splitNumber]
  rw [hwhole, hfraction.front, hexponent.front]

/-! ## Tokens -/

/-- At most one character behind its first matters for a symbol. -/
theorem Symbol.read_cons (c d : Char) (rest : List Char) :
    Symbol.read c (d :: rest) =
      (Symbol.read c [d]).map fun (mark, after) => (mark, after ++ rest) := by
  unfold Symbol.read
  split <;> simp_all

theorem Symbol.read_of_leading {c : Char}
    (hleading : Leading (fun d => d ≠ '*' ∧ d ≠ '/' ∧ d ≠ '=') cs) :
    Symbol.read c cs = (Symbol.read c []).map fun (mark, _) => (mark, cs) := by
  cases cs with
  | nil =>
      unfold Symbol.read
      split <;> simp_all
  | cons d tail =>
      obtain ⟨hstar, hslash, hequal⟩ := hleading d tail rfl
      unfold Symbol.read
      split <;> simp_all

theorem Symbol.read_singleton {c d : Char} {mark : Symbol} {after : List Char}
    (hread : Symbol.read c [d] = some (mark, after)) : after = [] ∨ after = [d] := by
  unfold Symbol.read at hread
  split at hread <;> simp_all

theorem Respaced.readSymbol (c : Char) (hrespaced : Respaced cs ds) :
    Option.Rel SplitAlike (Symbol.read c cs) (Symbol.read c ds) := by
  rcases hrespaced.plain_or_stop with ⟨d, tail, tail', hd, rfl, rfl, htail⟩ | ⟨hcs, hds⟩
  · rw [Symbol.read_cons, Symbol.read_cons c d tail']
    cases hread : Symbol.read c [d] with
    | none => exact .none
    | some pair =>
        obtain ⟨mark, after⟩ := pair
        rcases Symbol.read_singleton hread with rfl | rfl
        · exact .some ⟨rfl, htail⟩
        · exact .some ⟨rfl, hrespaced⟩
  · have hjoins : ∀ d, ¬ IsPlain d → d ≠ '*' ∧ d ≠ '/' ∧ d ≠ '=' := fun d hd =>
      ⟨ne_of_not_isPlain hd (by decide), ne_of_not_isPlain hd (by decide),
        ne_of_not_isPlain hd (by decide)⟩
    rw [Symbol.read_of_leading (hcs.mono hjoins), Symbol.read_of_leading (hds.mono hjoins)]
    cases Symbol.read c [] with
    | none => exact .none
    | some pair => exact .some ⟨rfl, hrespaced⟩

/-- A token that begins with a plain character is no quotation. -/
theorem Respaced.readToken (afterOperand : Bool) {c : Char} (hc : IsPlain c)
    (hrespaced : Respaced cs ds) :
    SplitAlike (Token.read afterOperand c cs) (Token.read afterOperand c ds) := by
  have hnumber := (Respaced.plain hc hrespaced).splitNumber
  have hsigned := hrespaced.splitNumber
  have hword := hrespaced.span (p := isNameContinue) fun _ => isPlain_of_isNameContinue
  have hmark : (decide (c = '\'') || decide (c = '"')) = false := by
    simpa [IsMark] using hc.2
  unfold Token.read
  simp only [hrespaced.startsWithDigit, hmark, Bool.false_eq_true, if_false]
  split
  · exact ⟨congrArg (fun word => Token.ofWord (c :: word)) hword.front, hword.behind⟩
  split
  · exact ⟨congrArg (fun digits => Token.number (String.ofList digits)) hnumber.front,
      hnumber.behind⟩
  split
  · exact ⟨congrArg (fun digits => Token.number (String.ofList (c :: digits))) hsigned.front,
      hsigned.behind⟩
  · have hsymbol := hrespaced.readSymbol c
    revert hsymbol
    generalize Symbol.read c cs = first
    generalize Symbol.read c ds = second
    rintro (hsplit | _)
    · exact ⟨congrArg Token.symbol hsplit.front, hsplit.behind⟩
    · exact ⟨rfl, .nil⟩

theorem read_quotation {mark : Char} {text body : List Char} (hmark : IsMark mark)
    (hquoted : Quoted mark text body) (afterOperand : Bool) (cs : List Char) :
    isBlank mark = false ∧
      Token.read afterOperand mark (body ++ mark :: cs) =
        (.quoted (String.ofList text), cs) := by
  obtain ⟨c, inner, heq, hblank, hread⟩ := Token.isRead_quoted hmark hquoted afterOperand cs
  obtain ⟨rfl, rfl⟩ := List.cons.inj heq
  rw [List.append_assoc, List.singleton_append] at hread
  exact ⟨hblank, hread⟩

theorem read_unclosed {mark : Char} (hmark : IsMark mark) (hunclosed : Unclosed mark cs)
    (afterOperand : Bool) : Token.read afterOperand mark cs = (.stray, []) := by
  rw [unclosed_iff hmark] at hunclosed
  unfold Token.read
  rcases hmark with rfl | rfl <;>
    rw [if_neg (by decide), if_neg (by decide), if_neg (by simp), if_pos (by decide),
      hunclosed]

theorem lexAfter_blanks {blanks : List Char} (hblanks : ∀ c ∈ blanks, isBlank c = true)
    (afterOperand : Bool) (cs : List Char) :
    lexAfter afterOperand (blanks ++ cs) = lexAfter afterOperand cs := by
  induction blanks with
  | nil => rfl
  | cons c blanks ih =>
      rw [List.forall_mem_cons] at hblanks
      rw [List.cons_append, lexAfter_blank hblanks.1, ih hblanks.2]

theorem IsBlankRun.length_pos {run : List Char} (hrun : IsBlankRun run) : 0 < run.length :=
  List.length_pos_iff.mpr hrun.1

/-- Respaced texts have the same tokens. -/
theorem Respaced.lexAfter_eq (afterOperand : Bool) {cs ds : List Char}
    (hrespaced : Respaced cs ds) :
    (lexAfter afterOperand cs).map Lexeme.token =
      (lexAfter afterOperand ds).map Lexeme.token := by
  cases hrespaced with
  | nil => rfl
  | @plain c cs ds hc htail =>
      have hread := htail.readToken afterOperand hc
      -- What is left behind the token is respaced, but not as a part of this derivation.
      have hshorter := Token.read_length afterOperand c cs
      have hbehind := Respaced.lexAfter_eq (Token.read afterOperand c cs).1.endsOperand
        hread.behind
      rw [lexAfter_token hc.1, lexAfter_token hc.1, List.map_cons, List.map_cons, hbehind,
        hread.front]
  | blanks hbefore hafter htail =>
      have hpositive := hbefore.length_pos
      rw [lexAfter_blanks hbefore.2, lexAfter_blanks hafter.2]
      exact Respaced.lexAfter_eq afterOperand htail
  | @quotation mark text body cs ds hmark hquoted htail =>
      obtain ⟨hblank, hfirst⟩ := read_quotation hmark hquoted afterOperand cs
      obtain ⟨-, hsecond⟩ := read_quotation hmark hquoted afterOperand ds
      have hbehind := Respaced.lexAfter_eq true htail
      rw [lexAfter_token hblank, lexAfter_token hblank, List.map_cons, List.map_cons, hfirst,
        hsecond]
      exact congrArg (_ :: ·) hbehind
  | unclosed hmark hunclosed hreblanked =>
      have hother := hreblanked.unclosed hmark hunclosed
      rw [lexAfter_token hmark.isBlank_eq_false, lexAfter_token hmark.isBlank_eq_false,
        read_unclosed hmark hunclosed, read_unclosed hmark hother, lexAfter_nil]
      rfl
  termination_by cs.length
  decreasing_by
    all_goals simp only [List.length_append, List.length_cons]
    all_goals omega

end RecordCondition
