import RecordCondition.Proofs.Spelling.Characters
import RecordCondition.Proofs.Spelling.Layout
import RecordCondition.Proofs.Spelling.Placement

/-!
# Laid-out tokens are found again

A written token is read whole, and nothing behind it with it, when the next
character is none that the token could take.  The blanks of a layout and the
turns of operands and operators see to that.
-/

namespace RecordCondition

open Text

/-- The first of some characters, if there is one, has the property. -/
def Leading (holds : Char → Prop) (cs : List Char) : Prop :=
  ∀ c tail, cs = c :: tail → holds c

theorem Leading.nil (holds : Char → Prop) : Leading holds [] := by
  intro c tail heq
  exact absurd heq (by simp)

theorem Leading.cons {holds : Char → Prop} {c : Char} (hc : holds c) (cs : List Char) :
    Leading holds (c :: cs) := by
  intro first tail heq
  obtain ⟨rfl, rfl⟩ := List.cons.inj heq
  exact hc

theorem Leading.mono {holds weaker : Char → Prop} {cs : List Char}
    (hleading : Leading holds cs) (hweaker : ∀ c, holds c → weaker c) :
    Leading weaker cs := by
  intro c tail heq
  exact hweaker c (hleading c tail heq)

theorem takeWhile_append {p : Char → Bool} {cs rest : List Char}
    (hall : ∀ c ∈ cs, p c = true) (hrest : Leading (fun c => p c = false) rest) :
    (cs ++ rest).takeWhile p = cs := by
  rw [List.takeWhile_append_of_pos hall]
  cases rest with
  | nil => exact List.append_nil cs
  | cons c tail =>
      rw [List.takeWhile_cons_of_neg (by rw [hrest c tail rfl]; exact Bool.false_ne_true),
        List.append_nil]

theorem dropWhile_append {p : Char → Bool} {cs rest : List Char}
    (hall : ∀ c ∈ cs, p c = true) (hrest : Leading (fun c => p c = false) rest) :
    (cs ++ rest).dropWhile p = rest := by
  rw [List.dropWhile_append_of_pos hall]
  cases rest with
  | nil => rfl
  | cons c tail =>
      rw [List.dropWhile_cons_of_neg (by rw [hrest c tail rfl]; exact Bool.false_ne_true)]

theorem leading_dropWhile (p : Char → Bool) (cs : List Char) :
    Leading (fun c => p c = false) (cs.dropWhile p) := by
  intro c tail heq
  have hhead := List.head?_dropWhile_not p cs
  rw [heq] at hhead
  simpa using hhead

/-! ## Numbers -/

theorem splitFraction_append_rest {fraction rest : List Char}
    (hfraction : IsFraction fraction)
    (hdigit : Leading (fun c => c.isDigit = false) rest)
    (hdot : fraction = [] → Leading (· ≠ '.') rest) :
    splitFraction (fraction ++ rest) = (fraction, rest) := by
  cases hfraction with
  | none =>
      rw [List.nil_append]
      unfold splitFraction
      split
      · next tail => exact absurd rfl (hdot rfl '.' tail rfl)
      · rfl
  | some hdigits =>
      rw [List.cons_append, splitFraction, takeWhile_append hdigits hdigit,
        dropWhile_append hdigits hdigit]

theorem splitSign_append_rest {sign rest : List Char} (hsign : IsSign sign)
    (hrest : Leading (fun c => c ≠ '+' ∧ c ≠ '-') rest) :
    splitSign (sign ++ rest) = (sign, rest) := by
  rcases hsign with rfl | rfl | rfl
  · rw [List.nil_append]
    unfold splitSign
    split
    · next tail => exact absurd rfl (hrest '+' tail rfl).1
    · next tail => exact absurd rfl (hrest '-' tail rfl).2
    · rfl
  · rfl
  · rfl

theorem ne_sign_of_isDigit {c : Char} (hdigit : c.isDigit = true) : c ≠ '+' ∧ c ≠ '-' := by
  constructor <;> rintro rfl <;> exact absurd hdigit (by decide)

theorem splitExponent_append_rest {exponent rest : List Char}
    (hexponent : IsExponent exponent)
    (hdigit : Leading (fun c => c.isDigit = false) rest)
    (hmark : Leading (fun c => c ≠ 'e' ∧ c ≠ 'E') rest) :
    splitExponent (exponent ++ rest) = (exponent, rest) := by
  cases hexponent with
  | none =>
      rw [List.nil_append]
      cases rest with
      | nil => rfl
      | cons c tail =>
          have hc := hmark c tail rfl
          rw [splitExponent]
          simp only [hc.1, hc.2, decide_false, Bool.or_self, Bool.false_and,
            Bool.false_eq_true, if_false]
  | @some mark sign digits hmark hsign hnonempty hdigits =>
      obtain ⟨first, others, rfl⟩ := List.exists_cons_of_ne_nil hnonempty
      have hfirst : first.isDigit = true := hdigits first List.mem_cons_self
      have hsplit : splitSign (sign ++ ((first :: others) ++ rest)) =
          (sign, (first :: others) ++ rest) :=
        splitSign_append_rest hsign (Leading.cons (ne_sign_of_isDigit hfirst) _)
      have hexponent : (decide (mark = 'e') || decide (mark = 'E')) = true := by
        rw [Bool.or_eq_true, decide_eq_true_iff, decide_eq_true_iff]
        exact hmark
      rw [List.cons_append, List.append_assoc, splitExponent]
      simp only [hsplit, hexponent, Bool.true_and]
      rw [if_pos (by exact hfirst), takeWhile_append hdigits hdigit,
        dropWhile_append hdigits hdigit]

theorem IsExponent.leading {exponent rest : List Char} (hexponent : IsExponent exponent)
    (hnonempty : exponent ≠ []) :
    Leading (fun c => c.isDigit = false ∧ c ≠ '.') (exponent ++ rest) := by
  cases hexponent with
  | none => exact absurd rfl hnonempty
  | some hmark _ _ _ =>
      rw [List.cons_append]
      apply Leading.cons
      rcases hmark with rfl | rfl <;> decide

theorem IsFraction.leading {fraction rest : List Char} (hfraction : IsFraction fraction)
    (hnonempty : fraction ≠ []) :
    Leading (fun c => c.isDigit = false) (fraction ++ rest) := by
  cases hfraction with
  | none => exact absurd rfl hnonempty
  | some _ =>
      rw [List.cons_append]
      exact Leading.cons (by decide) _

def EndsNumber (digits : List Char) (c : Char) : Prop :=
  c.isDigit = false ∧ c ≠ 'e' ∧ c ≠ 'E' ∧ (IsWhole digits → c ≠ '.')

theorem isWhole_of_allDigits {digits : List Char} (hdigits : AllDigits digits) :
    IsWhole digits := by
  intro c hc
  have hdigit := hdigits c hc
  refine ⟨?_, ?_, ?_⟩ <;> rintro rfl <;> exact absurd hdigit (by decide)

theorem splitNumber_append_rest {whole fraction exponent rest : List Char}
    (hwhole : AllDigits whole) (hfraction : IsFraction fraction)
    (hexponent : IsExponent exponent)
    (hrest : Leading (EndsNumber (whole ++ fraction ++ exponent)) rest) :
    splitNumber (whole ++ fraction ++ exponent ++ rest) =
      (whole ++ fraction ++ exponent, rest) := by
  have hdigit : Leading (fun c => c.isDigit = false) rest :=
    hrest.mono fun _ hends => hends.1
  have hmark : Leading (fun c => c ≠ 'e' ∧ c ≠ 'E') rest :=
    hrest.mono fun _ hends => ⟨hends.2.1, hends.2.2.1⟩
  have hafter : Leading (fun c => c.isDigit = false) (exponent ++ rest) := by
    by_cases hnone : exponent = []
    · rw [hnone]
      exact hdigit
    · exact (hexponent.leading hnone).mono fun _ hleading => hleading.1
  have hdot : fraction = [] → Leading (· ≠ '.') (exponent ++ rest) := by
    rintro rfl
    by_cases hnone : exponent = []
    · subst hnone
      rw [List.append_nil, List.append_nil] at hrest
      exact hrest.mono fun _ hends => hends.2.2.2 (isWhole_of_allDigits hwhole)
    · exact (hexponent.leading hnone).mono fun _ hleading => hleading.2
  have hbehind : Leading (fun c => c.isDigit = false) (fraction ++ (exponent ++ rest)) := by
    by_cases hnone : fraction = []
    · rw [hnone]
      exact hafter
    · exact hfraction.leading hnone
  unfold splitNumber
  rw [List.append_assoc, List.append_assoc, takeWhile_append hwhole hbehind,
    dropWhile_append hwhole hbehind]
  simp only [splitFraction_append_rest hfraction hafter hdot,
    splitExponent_append_rest hexponent hdigit hmark]

/-! ## Quotations -/

theorem splitQuotation_quoted {quote : Char} {text body : List Char}
    (hquote : quote ≠ '\\') (hquoted : Quoted quote text body) (rest : List Char) :
    splitQuotation quote (body ++ quote :: rest) = some (text, rest) := by
  induction hquoted with
  | nil =>
      rw [List.nil_append]
      unfold splitQuotation
      split
      · simp_all
      · simp_all
      · simp_all
  | @plain c text body hmark hbackslash _ ih =>
      rw [List.cons_append]
      unfold splitQuotation
      split
      · simp_all
      · simp_all
      · simp_all
  | escaped c _ ih =>
      rw [List.cons_append, List.cons_append, splitQuotation, ih]
      rfl

/-! ## One token -/

def Token.StopsBefore (afterOperand : Bool) (c : Char) : Token → Prop
  | .name _ | .keyword _ | .truth _ => isNameContinue c = false
  | .number digits => EndsNumber digits.toList c
  | .symbol .star => c ≠ '*'
  | .symbol .slash => c ≠ '/'
  | .symbol .less | .symbol .greater => c ≠ '='
  | .symbol .plus | .symbol .minus => afterOperand = false → c.isDigit = false
  | _ => True

/-- The token is what stands at the front of the characters. -/
def Token.IsRead (afterOperand : Bool) (token : Token) (written rest : List Char) : Prop :=
  ∃ c cs, written = c :: cs ∧ isBlank c = false ∧
    Token.read afterOperand c (cs ++ rest) = (token, rest)

theorem isNameContinue_of_all_isNameStart {word : List Char}
    (hword : ∀ c ∈ word, isNameStart c = true) : ∀ c ∈ word, isNameContinue c = true := by
  intro c hc
  exact isNameContinue_of_isNameStart (hword c hc)

theorem Token.isRead_word {afterOperand : Bool} {written rest : List Char}
    (hstart : ∃ c cs, written = c :: cs ∧ isNameStart c = true)
    (hall : ∀ c ∈ written, isNameContinue c = true)
    (hrest : Leading (fun c => isNameContinue c = false) rest) :
    (Token.ofWord written).IsRead afterOperand written rest := by
  obtain ⟨c, cs, rfl, hc⟩ := hstart
  rw [List.forall_mem_cons] at hall
  refine ⟨c, cs, rfl, ?_, ?_⟩
  · exact isBlank_eq_false_of_isNameContinue hall.1
  · unfold Token.read
    rw [if_pos hc, takeWhile_append hall.2 hrest, dropWhile_append hall.2 hrest]

theorem Token.ofWord_of_unreserved {written : List Char}
    (hunreserved : String.ofList (written.map Char.toLower) ∉ reservedWords) :
    Token.ofWord written = .name (String.ofList written) := by
  unfold Token.ofWord
  split
  all_goals
    first
    | rfl
    | next heq =>
        rw [heq] at hunreserved
        exact absurd (by decide) hunreserved

theorem Token.ofWord_keyword {word : Keyword} {written : List Char}
    (hwritten : written.map Char.toLower = word.text.toList) :
    Token.ofWord written = .keyword word := by
  unfold Token.ofWord
  rw [hwritten, String.ofList_toList]
  cases word <;> rfl

theorem Token.ofWord_truth {value : Bool} {written : List Char}
    (hwritten : (Token.truth value).Written written) :
    Token.ofWord written = .truth value := by
  unfold Token.ofWord
  cases value with
  | true =>
      change written.map Char.toLower = "true".toList at hwritten
      rw [hwritten, String.ofList_toList]
      rfl
  | false =>
      change written.map Char.toLower = "false".toList at hwritten
      rw [hwritten, String.ofList_toList]
      rfl

theorem exists_cons_isNameStart {word letters : List Char} (hnonempty : letters ≠ [])
    (hword : word.map Char.toLower = letters)
    (hall : ∀ c ∈ word, isNameStart c = true) :
    ∃ c cs, word = c :: cs ∧ isNameStart c = true := by
  cases word with
  | nil => exact absurd hword.symm hnonempty
  | cons c cs => exact ⟨c, cs, rfl, hall c List.mem_cons_self⟩

theorem Token.isRead_letters {afterOperand : Bool} {token : Token}
    {written letters rest : List Char}
    (hletters : areSmallLetters letters = true) (hnonempty : letters ≠ [])
    (hwritten : written.map Char.toLower = letters)
    (htoken : Token.ofWord written = token)
    (hrest : Leading (fun c => isNameContinue c = false) rest) :
    token.IsRead afterOperand written rest := by
  have hall := isNameStart_of_map_toLower hletters hwritten
  rw [← htoken]
  exact Token.isRead_word (exists_cons_isNameStart hnonempty hwritten hall)
    (isNameContinue_of_all_isNameStart hall) hrest

theorem isWhole_of_sign {sign body : List Char} (hsign : IsSign sign)
    (hbody : IsWhole body) : IsWhole (sign ++ body) := by
  intro c hc
  rcases List.mem_append.mp hc with hmem | hmem
  · rcases hsign with rfl | rfl | rfl
    · exact absurd hmem List.not_mem_nil
    · rw [List.mem_singleton.mp hmem]
      decide
    · rw [List.mem_singleton.mp hmem]
      decide
  · exact hbody c hmem

theorem EndsNumber.of_sign {sign body : List Char} {c : Char} (hsign : IsSign sign)
    (hends : EndsNumber (sign ++ body) c) : EndsNumber body c := by
  obtain ⟨hdigit, hsmall, hcapital, hdot⟩ := hends
  exact ⟨hdigit, hsmall, hcapital, fun hwhole => hdot (isWhole_of_sign hsign hwhole)⟩

theorem startsWithDigit_append {whole rest : List Char} (hnonempty : whole ≠ [])
    (hwhole : AllDigits whole) : startsWithDigit (whole ++ rest) = true := by
  obtain ⟨first, others, rfl⟩ := List.exists_cons_of_ne_nil hnonempty
  exact hwhole first List.mem_cons_self

theorem Token.isRead_number {afterOperand : Bool} {written rest : List Char}
    (hnumber : IsNumber written) (hafter : afterOperand = false)
    (hrest : Leading (EndsNumber written) rest) :
    (Token.number (String.ofList written)).IsRead afterOperand written rest := by
  obtain ⟨sign, whole, fraction, exponent, rfl, hsign, hnonempty, hwhole, hfraction,
    hexponent⟩ := hnumber
  have hsplit : splitNumber (whole ++ fraction ++ exponent ++ rest) =
      (whole ++ fraction ++ exponent, rest) :=
    splitNumber_append_rest hwhole hfraction hexponent
      (hrest.mono fun _ hends => hends.of_sign hsign)
  have hdigit : startsWithDigit (whole ++ fraction ++ exponent ++ rest) = true := by
    rw [List.append_assoc, List.append_assoc]
    exact startsWithDigit_append hnonempty hwhole
  have hsigned : ∀ c : Char, c = '+' ∨ c = '-' →
      (Token.number (String.ofList (c :: (whole ++ fraction ++ exponent)))).IsRead
        afterOperand (c :: (whole ++ fraction ++ exponent)) rest := by
    intro c hc
    refine ⟨c, _, rfl, ?_, ?_⟩
    · rcases hc with rfl | rfl <;> decide
    · have hstart : isNameStart c = false := by
        rcases hc with rfl | rfl <;> decide
      have hnone : c.isDigit = false := by
        rcases hc with rfl | rfl <;> decide
      have hmark : (decide (c = '+') || decide (c = '-')) = true := by
        rw [Bool.or_eq_true, decide_eq_true_iff, decide_eq_true_iff]
        exact hc
      unfold Token.read
      simp only [hstart, hnone, hmark, hafter, hdigit, hsplit, Bool.false_eq_true,
        if_false, Bool.not_false, Bool.and_self, if_true]
  rcases hsign with rfl | rfl | rfl
  · obtain ⟨first, others, rfl⟩ := List.exists_cons_of_ne_nil hnonempty
    have hfirst : first.isDigit = true := hwhole first List.mem_cons_self
    refine ⟨first, others ++ fraction ++ exponent, rfl, ?_, ?_⟩
    · exact isBlank_eq_false_of_isNameContinue (isNameContinue_of_isDigit hfirst)
    · have hstart := isNameStart_eq_false_of_isDigit hfirst
      have hsplit : splitNumber (first :: (others ++ fraction ++ exponent ++ rest)) =
          (first :: (others ++ fraction ++ exponent), rest) := hsplit
      unfold Token.read
      simp only [hstart, hfirst, Bool.false_eq_true, if_false, if_true, hsplit]
      rfl
  · exact hsigned '+' (Or.inl rfl)
  · exact hsigned '-' (Or.inr rfl)

theorem Token.isRead_quoted {quote : Char} {text body : List Char}
    (hquote : quote = '\'' ∨ quote = '"') (hquoted : Quoted quote text body)
    (afterOperand : Bool) (rest : List Char) :
    (Token.quoted (String.ofList text)).IsRead afterOperand
      (quote :: (body ++ [quote])) rest := by
  have hsplit : splitQuotation quote (body ++ [quote] ++ rest) = some (text, rest) := by
    rw [List.append_assoc, List.singleton_append]
    apply splitQuotation_quoted _ hquoted
    rcases hquote with rfl | rfl <;> decide
  refine ⟨quote, body ++ [quote], rfl, ?_, ?_⟩
  · rcases hquote with rfl | rfl <;> decide
  · unfold Token.read
    rcases hquote with rfl | rfl
    · rw [if_neg (by decide), if_neg (by decide), if_neg (by simp), if_pos (by decide),
        hsplit]
    · rw [if_neg (by decide), if_neg (by decide), if_neg (by simp), if_pos (by decide),
        hsplit]

theorem Symbol.read_written {mark : Symbol} {afterOperand : Bool} {rest : List Char}
    (hrest : Leading (fun c => (Token.symbol mark).StopsBefore afterOperand c) rest) :
    ∃ c cs, mark.text.toList = c :: cs ∧
      Symbol.read c (cs ++ rest) = some (mark, rest) := by
  cases mark with
  | opening bracket => cases bracket <;> exact ⟨_, _, rfl, rfl⟩
  | closing bracket => cases bracket <;> exact ⟨_, _, rfl, rfl⟩
  | star =>
      refine ⟨'*', [], rfl, ?_⟩
      unfold Symbol.read
      split <;> simp_all [Token.StopsBefore, Leading]
  | slash =>
      refine ⟨'/', [], rfl, ?_⟩
      unfold Symbol.read
      split <;> simp_all [Token.StopsBefore, Leading]
  | less =>
      refine ⟨'<', [], rfl, ?_⟩
      unfold Symbol.read
      split <;> simp_all [Token.StopsBefore, Leading]
  | greater =>
      refine ⟨'>', [], rfl, ?_⟩
      unfold Symbol.read
      split <;> simp_all [Token.StopsBefore, Leading]
  | _ => exact ⟨_, _, rfl, rfl⟩

/-- The character is one that no symbol begins with, or a sign of a number. -/
theorem Symbol.first_of_text {mark : Symbol} {c : Char} {cs : List Char}
    (htext : mark.text.toList = c :: cs) :
    isNameContinue c = false ∧ isBlank c = false ∧ c.isDigit = false ∧ c ≠ '\'' ∧
      c ≠ '"' ∧ (c = '+' ∨ c = '-' → mark = .plus ∨ mark = .minus) := by
  cases mark with
  | opening bracket =>
      cases bracket <;> obtain ⟨rfl, rfl⟩ := List.cons.inj htext <;> decide
  | closing bracket =>
      cases bracket <;> obtain ⟨rfl, rfl⟩ := List.cons.inj htext <;> decide
  | _ =>
      obtain ⟨rfl, rfl⟩ := List.cons.inj htext
      decide

theorem Symbol.eq_dot_of_text {mark : Symbol} {cs : List Char}
    (htext : mark.text.toList = '.' :: cs) : mark = .dot := by
  cases mark with
  | dot => rfl
  | opening bracket =>
      cases bracket <;> exact absurd (List.cons.inj htext).1 (by decide)
  | closing bracket =>
      cases bracket <;> exact absurd (List.cons.inj htext).1 (by decide)
  | _ => exact absurd (List.cons.inj htext).1 (by decide)

theorem Token.isRead_symbol {mark : Symbol} {afterOperand : Bool} {rest : List Char}
    (hrest : Leading (fun c => (Token.symbol mark).StopsBefore afterOperand c) rest) :
    (Token.symbol mark).IsRead afterOperand mark.text.toList rest := by
  obtain ⟨c, cs, htext, hread⟩ := Symbol.read_written hrest
  obtain ⟨hname, hblank, hdigit, hsingle, hdouble, hsign⟩ := Symbol.first_of_text htext
  have hstart : isNameStart c = false := by
    rw [← Bool.not_eq_true]
    intro hstart
    rw [isNameContinue_of_isNameStart hstart] at hname
    exact absurd hname (by decide)
  have hunsigned : ((decide (c = '+') || decide (c = '-')) && !afterOperand &&
      startsWithDigit (cs ++ rest)) = false := by
    by_cases hc : c = '+' ∨ c = '-'
    · have hdigits : afterOperand = false → startsWithDigit (cs ++ rest) = false := by
        intro hafter
        have hstops : Leading (fun c => c.isDigit = false) (cs ++ rest) := by
          rcases hsign hc with rfl | rfl <;> obtain ⟨-, rfl⟩ := List.cons.inj htext <;>
            exact hrest.mono fun _ hstops => hstops hafter
        cases hbehind : cs ++ rest with
        | nil => rfl
        | cons next tail => exact hstops next tail hbehind
      cases afterOperand with
      | true => simp only [Bool.not_true, Bool.and_false, Bool.false_and]
      | false => rw [hdigits rfl, Bool.and_false]
    · rw [not_or] at hc
      simp only [hc.1, hc.2, decide_false, Bool.or_self, Bool.false_and]
  refine ⟨c, cs, htext, hblank, ?_⟩
  unfold Token.read
  simp only [hstart, hdigit, hunsigned, hsingle, hdouble, hread, Bool.false_eq_true,
    if_false, decide_false, Bool.or_self]

theorem Token.isRead_of_written {token : Token} {afterOperand : Bool}
    {written rest : List Char} (hwritten : token.Written written)
    (hfits : token.Fits afterOperand)
    (hrest : Leading (fun c => token.StopsBefore afterOperand c) rest) :
    token.IsRead afterOperand written rest := by
  cases token with
  | name id =>
      obtain ⟨rfl, hname⟩ := hwritten
      have hword := Token.ofWord_of_unreserved hname.unreserved
      rw [String.ofList_toList] at hword
      rw [← hword]
      exact Token.isRead_word hname.start hname.all hrest
  | keyword word =>
      have hnonempty : word.text.toList ≠ [] := by
        cases word <;> decide
      exact Token.isRead_letters word.areSmallLetters_text hnonempty hwritten
        (Token.ofWord_keyword hwritten) hrest
  | truth value =>
      have hword := Token.ofWord_truth hwritten
      cases value with
      | true => exact Token.isRead_letters (by decide) (by decide) hwritten hword hrest
      | false => exact Token.isRead_letters (by decide) (by decide) hwritten hword hrest
  | number digits =>
      obtain ⟨rfl, hnumber⟩ := hwritten
      have hread := Token.isRead_number hnumber hfits hrest
      rw [String.ofList_toList] at hread
      exact hread
  | quoted text =>
      obtain ⟨quote, body, hquote, hquoted, rfl⟩ := hwritten
      have hread := Token.isRead_quoted hquote hquoted afterOperand rest
      rw [String.ofList_toList] at hread
      exact hread
  | symbol mark =>
      obtain rfl := hwritten
      exact Token.isRead_symbol hrest
  | stray => exact absurd hwritten id

/-! ## The next token -/

inductive Token.BeginsWith : Token → Char → Prop
  | word {token : Token} {c : Char} :
      token.BeginsWord → isNameStart c = true → BeginsWith token c
  | digit {digits : String} {c : Char} :
      startsWithDigit digits.toList = true → c.isDigit = true →
      BeginsWith (.number digits) c
  | sign {digits : String} {c : Char} : c = '+' ∨ c = '-' → BeginsWith (.number digits) c
  | quote {text : String} {c : Char} : c = '\'' ∨ c = '"' → BeginsWith (.quoted text) c
  | symbol {mark : Symbol} {c : Char} {cs : List Char} :
      mark.text.toList = c :: cs → BeginsWith (.symbol mark) c

theorem Token.beginsWith_of_written {token : Token} {written : List Char}
    (hwritten : token.Written written) :
    ∃ c cs, written = c :: cs ∧ token.BeginsWith c := by
  cases token with
  | name id =>
      obtain ⟨c, cs, hcs, hstart⟩ := hwritten.2.start
      exact ⟨c, cs, hcs, .word trivial hstart⟩
  | keyword word =>
      have hnonempty : word.text.toList ≠ [] := by
        cases word <;> decide
      obtain ⟨c, cs, hcs, hstart⟩ := exists_cons_isNameStart hnonempty hwritten
        (isNameStart_of_map_toLower word.areSmallLetters_text hwritten)
      exact ⟨c, cs, hcs, .word trivial hstart⟩
  | truth value =>
      cases value with
      | true =>
          obtain ⟨c, cs, hcs, hstart⟩ := exists_cons_isNameStart (by decide) hwritten
            (isNameStart_of_map_toLower (by decide) hwritten)
          exact ⟨c, cs, hcs, .word trivial hstart⟩
      | false =>
          obtain ⟨c, cs, hcs, hstart⟩ := exists_cons_isNameStart (by decide) hwritten
            (isNameStart_of_map_toLower (by decide) hwritten)
          exact ⟨c, cs, hcs, .word trivial hstart⟩
  | number digits =>
      obtain ⟨rfl, hnumber⟩ := hwritten
      obtain ⟨sign, whole, fraction, exponent, hdigits, hsign, hnonempty, hwhole, -, -⟩ :=
        hnumber
      rcases hsign with rfl | rfl | rfl
      · obtain ⟨first, others, rfl⟩ := List.exists_cons_of_ne_nil hnonempty
        have hfirst : first.isDigit = true := hwhole first List.mem_cons_self
        refine ⟨first, _, hdigits, .digit ?_ hfirst⟩
        rw [hdigits]
        exact hfirst
      · exact ⟨'+', _, hdigits, .sign (Or.inl rfl)⟩
      · exact ⟨'-', _, hdigits, .sign (Or.inr rfl)⟩
  | quoted text =>
      obtain ⟨quote, body, hquote, -, rfl⟩ := hwritten
      exact ⟨quote, _, rfl, .quote hquote⟩
  | symbol mark =>
      obtain rfl := hwritten
      obtain ⟨c, cs, hcs, -⟩ := Symbol.read_written
        (Leading.nil fun c => (Token.symbol mark).StopsBefore true c)
      exact ⟨c, cs, hcs, .symbol hcs⟩
  | stray => exact absurd hwritten id

theorem Token.stopsBefore_blank {c : Char} (hblank : isBlank c = true)
    (token : Token) (afterOperand : Bool) : token.StopsBefore afterOperand c := by
  have hname : isNameContinue c = false := by
    rcases isBlank_iff.mp hblank with rfl | rfl | rfl | rfl <;> decide
  have hdigit : c.isDigit = false := by
    rcases isBlank_iff.mp hblank with rfl | rfl | rfl | rfl <;> decide
  have hends : ∀ digits, EndsNumber digits c := by
    intro digits
    rcases isBlank_iff.mp hblank with rfl | rfl | rfl | rfl <;>
      exact ⟨by decide, by decide, by decide, fun _ => by decide⟩
  unfold Token.StopsBefore
  split
  · exact hname
  · exact hname
  · exact hname
  · exact hends _
  · rintro rfl
    exact absurd hblank (by decide)
  · rintro rfl
    exact absurd hblank (by decide)
  · rintro rfl
    exact absurd hblank (by decide)
  · rintro rfl
    exact absurd hblank (by decide)
  · exact fun _ => hdigit
  · exact fun _ => hdigit
  · trivial

theorem Token.BeginsWith.isNameContinue_eq_false {next : Token} {c : Char}
    (hbegins : next.BeginsWith c) (hword : ¬ next.BeginsWord) :
    isNameContinue c = false := by
  cases hbegins with
  | word hbegins _ => exact absurd hbegins hword
  | digit hbegins _ => exact absurd hbegins hword
  | sign hsign => rcases hsign with rfl | rfl <;> decide
  | quote hquote => rcases hquote with rfl | rfl <;> decide
  | symbol htext => exact (Symbol.first_of_text htext).1

theorem isDigit_eq_false_of_isNameStart {c : Char} (hstart : isNameStart c = true) :
    c.isDigit = false := by
  rw [← Bool.not_eq_true]
  intro hdigit
  rw [isNameStart_eq_false_of_isDigit hdigit] at hstart
  exact absurd hstart (by decide)

/-- Only an infix symbol begins with a character that could make another symbol
of the one in front of it. -/
theorem Token.BeginsWith.not_infix {next : Token} {c : Char}
    (hbegins : next.BeginsWith c) (hfits : next.Fits false) :
    c ≠ '*' ∧ c ≠ '/' ∧ c ≠ '=' ∧ c ≠ '.' := by
  have hname : isNameContinue c = true → c ≠ '*' ∧ c ≠ '/' ∧ c ≠ '=' ∧ c ≠ '.' := by
    intro hname
    refine ⟨?_, ?_, ?_, ?_⟩ <;> rintro rfl <;> exact absurd hname (by decide)
  cases hbegins with
  | word _ hstart => exact hname (isNameContinue_of_isNameStart hstart)
  | digit _ hdigit => exact hname (isNameContinue_of_isDigit hdigit)
  | sign hsign => rcases hsign with rfl | rfl <;> decide
  | quote hquote => rcases hquote with rfl | rfl <;> decide
  | @symbol mark _ _ htext =>
      have hprefix : ¬ mark.IsInfix := by
        intro hinfix
        exact absurd (hfits hinfix) (by decide)
      cases mark with
      | opening bracket =>
          cases bracket <;> obtain ⟨rfl, rfl⟩ := List.cons.inj htext <;> decide
      | closing bracket =>
          cases bracket <;> obtain ⟨rfl, rfl⟩ := List.cons.inj htext <;> decide
      | comma | plus | minus | tilde =>
          obtain ⟨rfl, rfl⟩ := List.cons.inj htext
          decide
      | _ => exact absurd trivial hprefix

/-- Where no blank is needed, the next token is out of reach of the one before. -/
theorem Token.stopsBefore_next {token next : Token} {afterOperand : Bool} {c : Char}
    (hbegins : next.BeginsWith c) (hfits : next.Fits token.endsOperand)
    (hblank : ¬ token.NeedsBlank afterOperand next) :
    token.StopsBefore afterOperand c := by
  unfold Token.NeedsBlank at hblank
  rw [not_or, not_or] at hblank
  obtain ⟨hwords, hsigns, hdots⟩ := hblank
  have hword : token.EndsWord → isNameContinue c = false := by
    intro hends
    exact hbegins.isNameContinue_eq_false fun hnext => hwords ⟨hends, hnext⟩
  have hsign : token = .symbol .plus ∨ token = .symbol .minus → afterOperand = false →
      c.isDigit = false := by
    intro htoken hafter
    cases hbegins with
    | word _ hstart => exact isDigit_eq_false_of_isNameStart hstart
    | digit hunsigned _ => exact absurd ⟨htoken, hafter, hunsigned⟩ hsigns
    | sign hsign => rcases hsign with rfl | rfl <;> decide
    | quote hquote => rcases hquote with rfl | rfl <;> decide
    | symbol htext => exact (Symbol.first_of_text htext).2.2.1
  cases token with
  | name id => exact hword trivial
  | keyword word => exact hword trivial
  | truth value => exact hword trivial
  | quoted text => trivial
  | stray => trivial
  | number digits =>
      have hname := hword trivial
      refine ⟨?_, ?_, ?_, ?_⟩
      · rw [← Bool.not_eq_true]
        intro hdigit
        rw [isNameContinue_of_isDigit hdigit] at hname
        exact absurd hname (by decide)
      · rintro rfl
        exact absurd hname (by decide)
      · rintro rfl
        exact absurd hname (by decide)
      · rintro hwhole rfl
        cases hbegins with
        | word hbegins hstart => exact absurd hstart (by decide)
        | digit _ hdigit => exact absurd hdigit (by decide)
        | sign hsign => rcases hsign with heq | heq <;> exact absurd heq (by decide)
        | quote hquote => rcases hquote with heq | heq <;> exact absurd heq (by decide)
        | @symbol mark _ _ htext =>
            obtain rfl := Symbol.eq_dot_of_text htext
            exact hdots ⟨⟨digits, rfl, hwhole⟩, rfl⟩
  | symbol mark =>
      cases mark with
      | star => exact (hbegins.not_infix hfits).1
      | slash => exact (hbegins.not_infix hfits).2.1
      | less => exact (hbegins.not_infix hfits).2.2.1
      | greater => exact (hbegins.not_infix hfits).2.2.1
      | plus => exact hsign (Or.inl rfl)
      | minus => exact hsign (Or.inr rfl)
      | _ => trivial

/-! ## Whole texts -/

theorem Layout.leading {token : Token} {tokens : List Token} {cs : List Char}
    {afterOperand : Bool} (hlayout : Layout token.endsOperand tokens cs)
    (hplaced : Placed token.endsOperand tokens)
    (hblanks : ∀ next others, tokens = next :: others →
      token.NeedsBlank afterOperand next → ∃ c tail, cs = c :: tail ∧ isBlank c = true) :
    Leading (fun c => token.StopsBefore afterOperand c) cs := by
  cases hlayout with
  | nil => exact Leading.nil _
  | blank hblank _ => exact Leading.cons (token.stopsBefore_blank hblank afterOperand) _
  | @token _ next others written rest hwritten _ _ =>
      obtain ⟨c, tail, rfl, hbegins⟩ := Token.beginsWith_of_written hwritten
      have hread := Token.isRead_of_written hwritten hplaced.1 (Leading.nil _)
      obtain ⟨first, _, heq, hblank, -⟩ := hread
      obtain ⟨rfl, -⟩ := List.cons.inj heq
      have hunneeded : ¬ token.NeedsBlank afterOperand next := by
        intro hneeded
        obtain ⟨d, _, hcs, hd⟩ := hblanks next others rfl hneeded
        obtain ⟨rfl, -⟩ := List.cons.inj hcs
        rw [hblank] at hd
        exact absurd hd (by decide)
      rw [List.cons_append]
      exact Leading.cons (Token.stopsBefore_next hbegins hplaced.1 hunneeded) _

/-- The lexer finds the tokens of a layout. -/
theorem Layout.lexAfter_eq {afterOperand : Bool} {tokens : List Token} {cs : List Char}
    (hlayout : Layout afterOperand tokens cs) (hplaced : Placed afterOperand tokens) :
    (lexAfter afterOperand cs).map Lexeme.token = tokens := by
  induction hlayout with
  | nil afterOperand =>
      rw [lexAfter_nil]
      rfl
  | blank hblank _ ih =>
      rw [lexAfter_blank hblank]
      exact ih hplaced
  | token hwritten hrest hblanks ih =>
      obtain ⟨c, cs, rfl, hblank, hread⟩ := Token.isRead_of_written hwritten hplaced.1
        (hrest.leading hplaced.2 hblanks)
      rw [List.cons_append, lexAfter_token hblank, hread, List.map_cons, ih hplaced.2]

end RecordCondition
