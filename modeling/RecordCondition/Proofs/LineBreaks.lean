import RecordCondition.Condition
import RecordCondition.Proofs.Expr.Equality
import RecordCondition.Proofs.Nesting.Respacing

/-!
# Line breaks are blanks

A condition is read from its text with the line breaks replaced.  Where none stands in
a quotation this changes runs of blanks only, and so neither the expression nor how
deeply the text nests.
-/

namespace RecordCondition

open Text

/-! ## Replacing line breaks -/

def IsBreak (c : Char) : Prop :=
  c = '\r' ∨ c = '\n'

instance (c : Char) : Decidable (IsBreak c) :=
  inferInstanceAs (Decidable (c = '\r' ∨ c = '\n'))

/-- No line break stands in a quotation. -/
inductive BreaksOutside : List Char → Prop
  | nil : BreaksOutside []
  | outside {c : Char} {cs : List Char} :
      ¬ IsMark c → BreaksOutside cs → BreaksOutside (c :: cs)
  | quotation {mark : Char} {text body cs : List Char} :
      IsMark mark → Quoted mark text body → (∀ c ∈ body, ¬ IsBreak c) → BreaksOutside cs →
      BreaksOutside (mark :: (body ++ mark :: cs))
  | unclosed {mark : Char} {cs : List Char} :
      IsMark mark → Unclosed mark cs → BreaksOutside (mark :: cs)

theorem IsBreak.isBlank {c : Char} (hbreak : IsBreak c) : isBlank c = true := by
  rcases hbreak with rfl | rfl <;> rfl

theorem isBlankRun_lineEnd : IsBlankRun ['\r', '\n'] :=
  ⟨List.cons_ne_nil _ _, by simp [isBlank]⟩

theorem collapseChars_cons {c : Char} (hbreak : ¬ IsBreak c) (cs : List Char) :
    collapseChars (c :: cs) = c :: collapseChars cs := by
  have hreturn : c ≠ '\r' := fun heq => hbreak (.inl heq)
  have hfeed : c ≠ '\n' := fun heq => hbreak (.inr heq)
  rw [collapseChars]
  · simp [hreturn, hfeed]
  · exact fun _ heq => absurd heq hreturn

theorem collapseChars_append {body : List Char} (hbody : ∀ c ∈ body, ¬ IsBreak c)
    (cs : List Char) : collapseChars (body ++ cs) = body ++ collapseChars cs := by
  induction body with
  | nil => rfl
  | cons c body ih =>
      rw [List.forall_mem_cons] at hbody
      rw [List.cons_append, collapseChars_cons hbody.1, ih hbody.2, List.cons_append]

theorem collapseChars_feed (cs : List Char) :
    collapseChars ('\n' :: cs) = ' ' :: collapseChars cs := by
  simp [collapseChars]

theorem collapseChars_return {cs : List Char} (hfeed : Leading (· ≠ '\n') cs) :
    collapseChars ('\r' :: cs) = ' ' :: collapseChars cs := by
  cases cs with
  | nil => rfl
  | cons c tail =>
      have hc := hfeed c tail rfl
      simp [collapseChars, hc]

theorem not_isBreak_of_mem_collapseChars {cs : List Char} :
    ∀ c ∈ collapseChars cs, ¬ IsBreak c := by
  fun_induction collapseChars cs with
  | case1 rest ih => exact List.forall_mem_cons.mpr ⟨by decide, ih⟩
  | case2 c rest hpair ih =>
      refine List.forall_mem_cons.mpr ⟨?_, ih⟩
      by_cases hbreak : IsBreak c
      · rcases hbreak with rfl | rfl <;> decide
      · rw [if_neg (by simpa [IsBreak] using hbreak)]
        exact hbreak
  | case3 => simp

theorem length_collapseChars_le (cs : List Char) :
    (collapseChars cs).length ≤ cs.length := by
  fun_induction collapseChars cs with
  | case1 rest ih =>
      simp only [List.length_cons]
      omega
  | case2 c rest hpair ih => simpa using ih
  | case3 => simp

/-- Behind a mark without its counterpart all breaks become spaces. -/
theorem reblanked_collapseChars (cs : List Char) : Reblanked cs (collapseChars cs) := by
  have hspace : IsBlankRun [' '] := isBlankRun_singleton rfl
  fun_induction collapseChars cs with
  | case1 rest ih => exact .blanks isBlankRun_lineEnd hspace ih
  | case2 c rest hpair ih =>
      by_cases hbreak : IsBreak c
      · have hsingle := isBlankRun_singleton hbreak.isBlank
        rw [if_pos (by simpa [IsBreak] using hbreak)]
        exact .blanks hsingle hspace ih
      · rw [if_neg (by simpa [IsBreak] using hbreak)]
        exact .same c ih
  | case3 => exact .nil

/-- A run of blanks may be lengthened. -/
theorem Respaced.cons_blank {b c : Char} {cs ds : List Char} (hb : isBlank b = true)
    (hc : isBlank c = true) (hrespaced : Respaced (c :: cs) ds) :
    Respaced (b :: c :: cs) ds := by
  generalize hwhole : c :: cs = whole at hrespaced
  cases hrespaced with
  | nil => cases hwhole
  | plain hplain _ =>
      obtain ⟨rfl, -⟩ := List.cons.inj hwhole
      rw [hplain.1] at hc
      cases hc
  | @blanks before after _ _ hbefore hafter htail =>
      have hlonger : IsBlankRun (b :: before) :=
        ⟨List.cons_ne_nil _ _, List.forall_mem_cons.mpr ⟨hb, hbefore.2⟩⟩
      exact .blanks hlonger hafter htail
  | quotation hmark _ _ | unclosed hmark _ _ =>
      obtain ⟨rfl, -⟩ := List.cons.inj hwhole
      rw [hmark.isBlank_eq_false] at hc
      cases hc

theorem BreaksOutside.respaced {cs : List Char} (houtside : BreaksOutside cs) :
    Respaced cs (collapseChars cs) := by
  have hspace : IsBlankRun [' '] := isBlankRun_singleton rfl
  induction houtside with
  | nil => exact .nil
  | @outside c cs hmark _ ih =>
      by_cases hreturn : c = '\r'
      · subst hreturn
        cases cs with
        | nil => exact .blanks (isBlankRun_singleton rfl) hspace ih
        | cons d tail =>
            by_cases hfeed : d = '\n'
            · subst hfeed
              -- The feed ends the same line, so the run that it begins gets longer.
              rw [collapseChars_feed] at ih
              exact ih.cons_blank rfl rfl
            · rw [collapseChars_return (Leading.cons hfeed _)]
              exact .blanks (isBlankRun_singleton rfl) hspace ih
      by_cases hfeed : c = '\n'
      · subst hfeed
        rw [collapseChars_feed]
        exact .blanks (isBlankRun_singleton rfl) hspace ih
      have hbreak : ¬ IsBreak c := fun hbreak => hbreak.elim hreturn hfeed
      rw [collapseChars_cons hbreak]
      by_cases hblank : isBlank c = true
      · exact .blanks (isBlankRun_singleton hblank) (isBlankRun_singleton hblank) ih
      · exact .plain ⟨by simpa using hblank, hmark⟩ ih
  | @quotation mark text body cs hmark hquoted hbody _ ih =>
      have hbreak : ¬ IsBreak mark := by
        rcases hmark with rfl | rfl <;> decide
      rw [collapseChars_cons hbreak, collapseChars_append hbody, collapseChars_cons hbreak]
      exact .quotation hmark hquoted ih
  | @unclosed mark cs hmark hunclosed =>
      have hbreak : ¬ IsBreak mark := by
        rcases hmark with rfl | rfl <;> decide
      rw [collapseChars_cons hbreak]
      exact .unclosed hmark hunclosed (reblanked_collapseChars cs)

/-! ## Conditions -/

theorem toList_collapseLines (text : String) :
    (collapseLines text).toList = collapseChars text.toList := by
  rw [collapseLines, String.toList_ofList]

/-- Without line breaks nothing is replaced. -/
theorem collapseLines_collapseLines (text : String) :
    collapseLines (collapseLines text) = collapseLines text := by
  have hbreaks : ∀ c ∈ collapseChars text.toList, ¬ IsBreak c :=
    not_isBreak_of_mem_collapseChars
  have hnone := collapseChars_append hbreaks []
  rw [List.append_nil, collapseChars, List.append_nil] at hnone
  rw [collapseLines, toList_collapseLines, hnone, collapseLines]

theorem check_collapseLines {limits : Limits} {text : String}
    (houtside : BreaksOutside text.toList) (hcheck : limits.check text = .ok ()) :
    limits.check (collapseLines text) = .ok () := by
  rw [Limits.check_eq_ok_iff] at hcheck ⊢
  have hlength := length_collapseChars_le text.toList
  have hrespaced := houtside.respaced
  rw [← toList_collapseLines] at hlength hrespaced
  rw [String.length_toList, String.length_toList] at hlength
  rw [← nestingDepth_eq_of_respaced hrespaced]
  exact ⟨Nat.le_trans hlength hcheck.1, hcheck.2⟩

theorem Respaced.parse_eq_ok_iff {text other : String}
    (hrespaced : Respaced text.toList other.toList) (e : Expr) :
    Expr.parse text = .ok e ↔ Expr.parse other = .ok e := by
  rw [Expr.parse_eq_ok_iff, Expr.parse_eq_ok_iff, lex, lex, hrespaced.lexAfter_eq]

namespace Condition

/-- How a condition is spaced and broken into lines does not change what is read: two
texts that differ in their runs of blanks are read as the same expression, or neither is
read; where no line break stands in a quotation, the condition has the expression of
the text as it was; and its own text has no line breaks and is the same condition. -/
theorem spacing_immaterial :
    (∀ text other : String, Respaced text.toList other.toList →
      ∀ e, Expr.parse text = .ok e ↔ Expr.parse other = .ok e) ∧
    (∀ (limits : Limits) (text : String), BreaksOutside text.toList →
      (limits.check text = .ok () → limits.check (collapseLines text) = .ok ()) ∧
      (limits.check (collapseLines text) = .ok () →
        ∀ e, (∃ condition, parse limits text = .ok condition ∧ condition.expr = e) ↔
          Expr.parse text = .ok e)) ∧
    (∀ (limits : Limits) (text : String) (condition : Condition),
      parse limits text = .ok condition →
        (∀ c ∈ condition.text.toList, ¬ IsBreak c) ∧
          parse limits condition.text = .ok condition) := by
  refine ⟨fun text other hrespaced e => hrespaced.parse_eq_ok_iff e, ?_, ?_⟩
  · intro limits text houtside
    refine ⟨check_collapseLines houtside, ?_⟩
    intro hcheck e
    have hrespaced := houtside.respaced
    rw [← toList_collapseLines] at hrespaced
    rw [hrespaced.parse_eq_ok_iff]
    constructor
    · rintro ⟨condition, hparse, rfl⟩
      exact (parse_eq_ok_iff.mp hparse).2.2
    · intro hparse
      exact ⟨⟨collapseLines text, e⟩, parse_eq_ok_iff.mpr ⟨hcheck, rfl, hparse⟩, rfl⟩
  · intro limits text condition hparse
    obtain ⟨hcheck, htext, hexpr⟩ := parse_eq_ok_iff.mp hparse
    refine ⟨?_, ?_⟩
    · rw [htext, toList_collapseLines]
      exact not_isBreak_of_mem_collapseChars
    · rw [parse_eq_ok_iff, htext, collapseLines_collapseLines]
      exact ⟨hcheck, rfl, hexpr⟩

theorem quoted_self {mark : Char} {body : List Char}
    (hbody : ∀ c ∈ body, c ≠ mark ∧ c ≠ '\\') : Quoted mark body body := by
  induction body with
  | nil => exact .nil
  | cons c body ih =>
      rw [List.forall_mem_cons] at hbody
      exact .plain hbody.1.1 hbody.1.2 (ih hbody.2)

theorem respaced_brokenLines :
    Respaced "a\r\n== 'x  y'".toList "a ==\t'x  y'".toList := by
  exact .plain (by decide) (.blanks isBlankRun_lineEnd (isBlankRun_singleton (c := ' ') rfl)
    (.plain (by decide) (.plain (by decide)
      (.blanks (isBlankRun_singleton (c := ' ') rfl) (isBlankRun_singleton (c := '\t') rfl)
        (.refl _)))))

theorem parse_brokenLines :
    parse {} "a\r\n== 'x  y'" =
      .ok ⟨"a == 'x  y'", .compare (.name "a") [.equal] [.constant (.text "x  y")]⟩ := by
  decide +kernel

/-- A break between operands and blanks within a quotation. -/
theorem spacing_immaterial_brokenLines :
    Respaced "a\r\n== 'x  y'".toList "a ==\t'x  y'".toList ∧
    BreaksOutside "a\r\n== 'x  y'".toList ∧
    ∃ condition, parse {} "a\r\n== 'x  y'" = .ok condition ∧
      Expr.parse "a\r\n== 'x  y'" = .ok condition.expr ∧
      Expr.parse "a ==\t'x  y'" = .ok condition.expr ∧
      (∀ c ∈ condition.text.toList, ¬ IsBreak c) ∧ parse {} condition.text = .ok condition := by
  obtain ⟨hrespace, hbreaks, hcollapse⟩ := spacing_immaterial
  have houtside : BreaksOutside "a\r\n== 'x  y'".toList := by
    have hquoted : Quoted '\'' "x  y".toList "x  y".toList := quoted_self (by simp)
    have hquotation : BreaksOutside "'x  y'".toList :=
      .quotation (.inl rfl) hquoted (by simp [IsBreak]) .nil
    exact .outside (by decide) (.outside (by decide) (.outside (by decide)
      (.outside (by decide) (.outside (by decide) (.outside (by decide) hquotation)))))
  have hparse := parse_brokenLines
  have hcheck := (parse_eq_ok_iff.mp hparse).1
  have htree := ((hbreaks {} _ houtside).2 hcheck _).mp ⟨_, hparse, rfl⟩
  refine ⟨respaced_brokenLines, houtside, _, hparse, htree, ?_, hcollapse _ _ _ hparse⟩
  exact (hrespace _ _ respaced_brokenLines _).mp htree

end Condition

end RecordCondition
