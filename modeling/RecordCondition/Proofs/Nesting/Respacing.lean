import RecordCondition.Proofs.Nesting.Pieces
import RecordCondition.Proofs.Spelling.Respacing

/-!
# Respaced texts nest alike

The scan that measures how deeply a text nests cuts quotations and words as the tokens
do, and a blank is a piece that changes nothing.  So replacing runs of blanks outside
quotations does not change the depth that is measured.
-/

namespace RecordCondition

open Text

variable {cs ds : List Char}

theorem Piece.read_star_of_leading (hleading : Leading (· ≠ '*') cs) :
    Piece.read '*' cs = (.loose, cs) := by
  cases cs with
  | nil => rfl
  | cons c tail =>
      have hc := hleading c tail rfl
      simp [Piece.read, hc]

/-- Apart from a star, a character begins a word or is a piece of its own. -/
theorem Piece.read_cases {c : Char} (hc : IsPlain c) (hstar : c ≠ '*') :
    isNameContinue c = true ∨ ∃ piece, ∀ rest, Piece.read c rest = (piece, rest) := by
  by_cases hname : isNameContinue c = true
  · exact .inl hname
  have hsingle : c ≠ '\'' := fun heq => hc.2 (.inl heq)
  have hdouble : c ≠ '"' := fun heq => hc.2 (.inr heq)
  right
  refine ⟨(Piece.read c []).1, ?_⟩
  intro rest
  unfold Piece.read
  split <;> simp_all

theorem isPlain_of_isWordContinue {c : Char} (hc : isWordContinue c = true) : IsPlain c := by
  rcases isWordContinue_iff.mp hc with hname | rfl
  · exact isPlain_of_isNameContinue hname
  · decide

theorem Respaced.readPiece {c : Char} (hc : IsPlain c) (hrespaced : Respaced cs ds) :
    SplitAlike (Piece.read c cs) (Piece.read c ds) := by
  by_cases hstar : c = '*'
  · subst hstar
    rcases hrespaced.plain_or_stop with ⟨d, tail, tail', hd, rfl, rfl, htail⟩ | ⟨hcs, hds⟩
    · by_cases hpower : d = '*'
      · subst hpower
        exact ⟨rfl, htail⟩
      · rw [Piece.read_star_of_leading (Leading.cons hpower _),
          Piece.read_star_of_leading (Leading.cons hpower _)]
        exact ⟨rfl, hrespaced⟩
    · have hnone : ∀ d, ¬ IsPlain d → d ≠ '*' := fun d hd => ne_of_not_isPlain hd (by decide)
      rw [Piece.read_star_of_leading (hcs.mono hnone),
        Piece.read_star_of_leading (hds.mono hnone)]
      exact ⟨rfl, hrespaced⟩
  rcases Piece.read_cases hc hstar with hname | ⟨piece, hpiece⟩
  · have hword := hrespaced.span (p := isWordContinue) fun _ => isPlain_of_isWordContinue
    rw [Piece.read_of_isNameContinue hname, Piece.read_of_isNameContinue hname]
    exact ⟨congrArg (fun word => Piece.word (c :: word)) hword.front, hword.behind⟩
  · rw [hpiece, hpiece]
    exact ⟨rfl, hrespaced⟩

theorem skipQuotation_of_none {mark : Char} (hnone : splitQuotation mark cs = none) :
    skipQuotation mark cs = [] := by
  fun_induction splitQuotation mark cs with
  | case1 => rfl
  | case2 c rest ih => exact ih (by simpa using hnone)
  | case3 rest hescape => cases hnone
  | case4 c rest hescape hne ih =>
      by_cases hc : c = '\\'
      · cases rest with
        | nil =>
            subst hc
            rfl
        | cons d tail => exact absurd rfl (hescape d tail hc)
      · rw [skipQuotation, if_neg hne]
        · exact ih (by simpa using hnone)
        · exact fun heq => absurd heq hc
        · exact fun _ _ heq => absurd heq hc

theorem scanFrom_blanks {blanks : List Char} (hblanks : ∀ c ∈ blanks, isBlank c = true)
    {nesting : Nesting} (hcompared : nesting.Compared) (cs : List Char) :
    scanFrom false nesting (blanks ++ cs) = scanFrom false nesting cs := by
  induction blanks with
  | nil => rfl
  | cons c blanks ih =>
      rw [List.forall_mem_cons] at hblanks
      rw [List.cons_append, scanFrom_blank hblanks.1 hcompared, ih hblanks.2]

theorem scanFrom_unclosed {mark : Char} (hmark : IsMark mark) (hunclosed : Unclosed mark cs)
    (nesting : Nesting) :
    scanFrom false nesting (mark :: cs) = nesting.step .quotation := by
  rw [unclosed_iff hmark] at hunclosed
  have hread : Piece.read mark cs = (.quotation, skipQuotation mark cs) := by
    rcases hmark with rfl | rfl <;> rfl
  rw [scanFrom_cons, hread, skipQuotation_of_none hunclosed, scanFrom_nil]

/-- Respaced texts are counted alike. -/
theorem Respaced.scanFrom_eq {nesting : Nesting} (hcompared : nesting.Compared)
    {cs ds : List Char} (hrespaced : Respaced cs ds) :
    scanFrom false nesting cs = scanFrom false nesting ds := by
  cases hrespaced with
  | nil => rfl
  | @plain c cs ds hc htail =>
      have hread := htail.readPiece hc
      have hshorter := Piece.read_length c cs
      rw [scanFrom_cons, scanFrom_cons, ← hread.front]
      exact Respaced.scanFrom_eq (nesting.compared_step _) hread.behind
  | blanks hbefore hafter htail =>
      have hpositive := hbefore.length_pos
      rw [scanFrom_blanks hbefore.2 hcompared, scanFrom_blanks hafter.2 hcompared]
      exact Respaced.scanFrom_eq hcompared htail
  | quotation hmark hquoted htail =>
      have hsplit := splitQuotation_quoted hmark.ne_backslash hquoted
      rw [scanFrom_quotation hmark (hsplit _), scanFrom_quotation hmark (hsplit _)]
      exact Respaced.scanFrom_eq (nesting.compared_step _) htail
  | unclosed hmark hunclosed hreblanked =>
      rw [scanFrom_unclosed hmark hunclosed,
        scanFrom_unclosed hmark (hreblanked.unclosed hmark hunclosed)]
  termination_by cs.length
  decreasing_by
    all_goals simp only [List.length_append, List.length_cons]
    all_goals omega

theorem nestingDepth_eq_of_respaced {text other : String}
    (hrespaced : Respaced text.toList other.toList) :
    nestingDepth text = nestingDepth other :=
  congrArg Nesting.deepest (hrespaced.scanFrom_eq (Nat.le_refl _ : ({} : Nesting).Compared))

end RecordCondition
