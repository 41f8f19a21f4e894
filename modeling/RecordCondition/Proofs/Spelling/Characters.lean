import RecordCondition.Token.Lexer

/-!
# Characters that begin tokens

Which of the classes that the lexer asks about a character can be in at once.
Only the first entries of the class tables matter for the ASCII characters.
-/

namespace RecordCondition

open Text

theorem inRanges_cons (low high code : Nat) (ranges : List (Nat × Nat)) :
    inRanges ((low, high) :: ranges) code =
      if code < low then false
      else if code ≤ high then true
      else inRanges ranges code := rfl

theorem isAlphabetic_of_upper {c : Char} (hlow : 65 ≤ c.toNat) (hhigh : c.toNat ≤ 90) :
    isAlphabetic c = true := by
  unfold isAlphabetic alphabeticRanges
  rw [inRanges_cons, if_neg (by omega), if_pos hhigh]

theorem isAlphabetic_of_lower {c : Char} (hlow : 97 ≤ c.toNat) (hhigh : c.toNat ≤ 122) :
    isAlphabetic c = true := by
  unfold isAlphabetic alphabeticRanges
  rw [inRanges_cons, if_neg (by omega), if_neg (by omega), inRanges_cons,
    if_neg (by omega), if_pos hhigh]

theorem isDigit_iff {c : Char} : c.isDigit = true ↔ 48 ≤ c.toNat ∧ c.toNat ≤ 57 := by
  unfold Char.isDigit
  rw [Bool.and_eq_true, decide_eq_true_iff, decide_eq_true_iff]
  rfl

theorem isNameStart_eq_false_of_isDigit {c : Char} (hdigit : c.isDigit = true) :
    isNameStart c = false := by
  have hcode := isDigit_iff.mp hdigit
  have halphabetic : isAlphabetic c = false := by
    unfold isAlphabetic alphabeticRanges
    rw [inRanges_cons, if_pos (by omega)]
  have hunderscore : c ≠ '_' := by
    rintro rfl
    exact absurd hdigit (by decide)
  simp only [isNameStart, halphabetic, hunderscore, Bool.false_or, decide_false]

theorem isNameContinue_of_isDigit {c : Char} (hdigit : c.isDigit = true) :
    isNameContinue c = true := by
  have hcode := isDigit_iff.mp hdigit
  have hnumeric : inRanges numericRanges c.toNat = true := by
    unfold numericRanges
    rw [inRanges_cons, if_neg (by omega), if_pos hcode.2]
  simp only [isNameContinue, isAlphanumeric, hnumeric, Bool.or_true, Bool.true_or]

theorem isBlank_eq_false_of_isNameContinue {c : Char} (hname : isNameContinue c = true) :
    isBlank c = false := by
  rw [← Bool.not_eq_true, isBlank_iff]
  rintro (rfl | rfl | rfl | rfl) <;> exact absurd hname (by decide)

theorem toLower_eq_self {c : Char} (hupper : ¬ (65 ≤ c.toNat ∧ c.toNat ≤ 90)) :
    c.toLower = c := by
  unfold Char.toLower
  rw [dif_neg]
  rintro ⟨hlow, hhigh⟩
  exact hupper ⟨UInt32.le_iff_toNat_le.mp hlow, UInt32.le_iff_toNat_le.mp hhigh⟩

theorem isAlphabetic_of_toLower {c : Char}
    (hlow : 97 ≤ c.toLower.toNat) (hhigh : c.toLower.toNat ≤ 122) :
    isAlphabetic c = true := by
  by_cases hupper : 65 ≤ c.toNat ∧ c.toNat ≤ 90
  · exact isAlphabetic_of_upper hupper.1 hupper.2
  · rw [toLower_eq_self hupper] at hlow hhigh
    exact isAlphabetic_of_lower hlow hhigh

def areSmallLetters (letters : List Char) : Bool :=
  letters.all fun c => 97 ≤ c.toNat && c.toNat ≤ 122

theorem code_of_areSmallLetters {letters : List Char}
    (hletters : areSmallLetters letters = true) :
    ∀ c ∈ letters, 97 ≤ c.toNat ∧ c.toNat ≤ 122 := by
  intro c hc
  have hletter := List.all_eq_true.mp hletters c hc
  rw [Bool.and_eq_true, decide_eq_true_iff, decide_eq_true_iff] at hletter
  exact hletter

theorem Keyword.areSmallLetters_text (word : Keyword) :
    areSmallLetters word.text.toList = true := by
  cases word <;> decide

theorem isNameStart_of_map_toLower {word letters : List Char}
    (hletters : areSmallLetters letters = true)
    (hword : word.map Char.toLower = letters) :
    ∀ c ∈ word, isNameStart c = true := by
  intro c hc
  have hlower : c.toLower ∈ letters := by
    rw [← hword]
    exact List.mem_map_of_mem hc
  obtain ⟨hlow, hhigh⟩ := code_of_areSmallLetters hletters _ hlower
  simp only [isNameStart, isAlphabetic_of_toLower hlow hhigh, Bool.true_or]

end RecordCondition
