import RecordCondition.Proofs.Spelling.Reentry
import RecordCondition.Proofs.Spelling.Verbatim

/-!
# Reading makes progress

Every reader leaves the tokens of an end of the text.  Whatever a repetition repeats takes
at least one character that is no blank, and so does whatever stands in front of a reader
that is entered again.  So no repetition is ended for an item that takes nothing, and the
ladder is the one solution of the recursion between its readers, for every text.
-/

namespace RecordCondition

open Text

variable {α : Type}

/-! ## Ends of a text -/

def tokensAfter (afterOperand : Bool) (cs : List Char) : List Token :=
  (lexAfter afterOperand cs).map Lexeme.token

/-- What is left of a text behind at least one character that is no blank. -/
def Past (cs left : List Char) : Prop :=
  ∃ taken, cs = taken ++ left ∧ ∃ c ∈ taken, isBlank c = false

theorem tokensAfter_blank {c : Char} (hblank : isBlank c = true) (afterOperand : Bool)
    (rest : List Char) :
    tokensAfter afterOperand (c :: rest) = tokensAfter afterOperand rest := by
  unfold tokensAfter
  rw [lexAfter_blank hblank]

theorem tokensAfter_token {c : Char} (hblank : isBlank c = false) (afterOperand : Bool)
    (rest : List Char) :
    tokensAfter afterOperand (c :: rest) =
      (Token.read afterOperand c rest).1 ::
        tokensAfter (Token.read afterOperand c rest).1.endsOperand
          (Token.read afterOperand c rest).2 := by
  unfold tokensAfter
  rw [lexAfter_token hblank, List.map_cons]

/-- A token leaves an end of the text behind its first character. -/
theorem Token.read_suffix (afterOperand : Bool) (c : Char) (rest : List Char) :
    (Token.read afterOperand c rest).2 <:+ rest := by
  have hlength := Token.read_length afterOperand c rest
  have hsuffix := Token.suffix_of_read (Prod.eta (Token.read afterOperand c rest)).symm
  rcases List.suffix_cons_iff.mp hsuffix with hwhole | hbehind
  · rw [hwhole, List.length_cons] at hlength
    omega
  · exact hbehind

/-- An end of the tokens is the tokens of an end of the text. -/
theorem exists_end_of_suffix {afterOperand : Bool} {cs : List Char} {rest : List Token}
    (hrest : rest <:+ tokensAfter afterOperand cs) :
    ∃ operandBefore left, left <:+ cs ∧ rest = tokensAfter operandBefore left := by
  induction afterOperand, cs using lexAfter.induct with
  | case1 afterOperand =>
      rw [tokensAfter, lexAfter_nil, List.map_nil, List.suffix_nil] at hrest
      refine ⟨afterOperand, [], List.suffix_refl [], ?_⟩
      rw [hrest, tokensAfter, lexAfter_nil, List.map_nil]
  | case2 afterOperand c tail hblank ih =>
      rw [tokensAfter_blank hblank] at hrest
      obtain ⟨operandBefore, left, hleft, heq⟩ := ih hrest
      exact ⟨operandBefore, left, hleft.trans (List.suffix_cons c tail), heq⟩
  | case3 afterOperand c tail hblank ih =>
      rw [Bool.not_eq_true] at hblank
      rw [tokensAfter_token hblank, List.suffix_cons_iff] at hrest
      rcases hrest with hwhole | hbehind
      · refine ⟨afterOperand, c :: tail, List.suffix_refl _, ?_⟩
        rw [hwhole, tokensAfter_token hblank]
      · obtain ⟨operandBefore, left, hleft, heq⟩ := ih hbehind
        have hafter := Token.read_suffix afterOperand c tail
        exact ⟨operandBefore, left, (hleft.trans hafter).trans (List.suffix_cons c tail), heq⟩

/-- Tokens behind at least one of a text are those of the text behind its characters. -/
theorem exists_past_of_behind {afterOperand : Bool} {cs : List Char} {rest : List Token}
    (hrest : Behind rest (tokensAfter afterOperand cs)) :
    ∃ operandBefore left, Past cs left ∧ rest = tokensAfter operandBefore left := by
  induction afterOperand, cs using lexAfter.induct with
  | case1 afterOperand =>
      rw [tokensAfter, lexAfter_nil, List.map_nil] at hrest
      exact absurd hrest.2 (Nat.not_lt_zero _)
  | case2 afterOperand c tail hblank ih =>
      -- A blank is taken together with the token behind it.
      rw [tokensAfter_blank hblank] at hrest
      obtain ⟨operandBefore, left, ⟨taken, rfl, d, hd, hplain⟩, heq⟩ := ih hrest
      have hmem : d ∈ c :: taken := List.mem_cons_of_mem c hd
      exact ⟨operandBefore, left, ⟨c :: taken, rfl, d, hmem, hplain⟩, heq⟩
  | case3 afterOperand c tail hblank =>
      rw [Bool.not_eq_true] at hblank
      rw [tokensAfter_token hblank] at hrest
      rcases List.suffix_cons_iff.mp hrest.1 with hwhole | hbehind
      · rw [hwhole] at hrest
        exact absurd hrest.2 (Nat.lt_irrefl _)
      · obtain ⟨operandBefore, left, hleft, heq⟩ := exists_end_of_suffix hbehind
        obtain ⟨taken, htaken⟩ := hleft.trans (Token.read_suffix afterOperand c tail)
        refine ⟨operandBefore, left, ⟨c :: taken, ?_, c, List.mem_cons_self, hblank⟩, heq⟩
        rw [List.cons_append, htaken]

/-! ## Readers -/

/-- What is left of the tokens of a text is the tokens of an end of it. -/
def LeavesEnd (take : List Token → α × List Token) : Prop :=
  ∀ afterOperand cs, ∃ operandBefore left, left <:+ cs ∧
    (take (tokensAfter afterOperand cs)).2 = tokensAfter operandBefore left

theorem leavesEnd_of_suffix {take : List Token → α × List Token}
    (htake : ∀ tokens, (take tokens).2 <:+ tokens) : LeavesEnd take :=
  fun afterOperand cs => exists_end_of_suffix (htake (tokensAfter afterOperand cs))

namespace Reader

/-- Where a reader succeeds on a text, it takes at least one character. -/
def Advances (reader : Reader α) : Prop :=
  ∀ afterOperand cs value rest, reader (tokensAfter afterOperand cs) = some (value, rest) →
    ∃ operandBefore left, Past cs left ∧ rest = tokensAfter operandBefore left

/-- Every item of a repetition takes at least one character, and so the repetition leaves
an end of the text and is never stopped by an item that takes nothing. -/
def Repeats (item : Reader α) : Prop :=
  item.Advances ∧ LeavesEnd (many item) ∧
    ∀ tokens, manyAsserted item tokens = some (many item tokens)

theorem Consumes.advances {reader : Reader α} (hreader : reader.Consumes) : reader.Advances :=
  fun afterOperand cs value rest hread =>
    exists_past_of_behind (hreader (tokensAfter afterOperand cs) value rest hread)

theorem Consumes.repeats {item : Reader α} (hitem : item.Consumes) : item.Repeats :=
  ⟨hitem.advances, leavesEnd_of_suffix (many_leaves hitem.leaves), hitem.manyAsserted_eq⟩

end Reader

/-- Every reader of a ladder takes at least one character, apart from the one for elements,
which may take none, and so does every item of its repetitions. -/
structure LadderProgresses (inner : Reader Expr) : Prop where
  test_advances : inner.Advances
  elements_leaves : LeavesEnd (elements inner)
  enclosed_advances : ∀ bracket, (enclosed inner bracket).Advances
  atom_advances : (atom inner).Advances
  trailer_advances : (trailer inner).Advances
  postfixed_advances : (postfixed inner).Advances
  signed_advances : (signed inner).Advances
  factor_advances : (factor inner).Advances
  term_advances : (term inner).Advances
  arithmetic_advances : (arithmetic inner).Advances
  comparison_advances : (comparison inner).Advances
  negation_advances : (negation inner).Advances
  conjunction_advances : (conjunction inner).Advances
  disjunction_advances : (disjunction inner).Advances
  elements_repeat : (Reader.step (symbol .comma) inner).Repeats
  trailers_repeat : (trailer inner).Repeats
  powers_repeat : (exponent inner).Repeats
  products_repeat : (Reader.step productOperator (factor inner)).Repeats
  sums_repeat : (Reader.step sumOperator (term inner)).Repeats
  relations_repeat : (Reader.step relation (arithmetic inner)).Repeats
  conjuncts_repeat : (Reader.step (keyword .and) (negation inner)).Repeats
  disjuncts_repeat : (Reader.step (keyword .or) (conjunction inner)).Repeats

theorem ladderProgresses {inner : Reader Expr} (hinner : inner.Consumes) :
    LadderProgresses inner where
  test_advances := hinner.advances
  elements_leaves := leavesEnd_of_suffix (elements_suffix hinner.leaves)
  enclosed_advances bracket := (enclosed_consumes hinner.leaves bracket).advances
  atom_advances := (atom_consumes hinner.leaves).advances
  trailer_advances := (trailer_consumes hinner.leaves).advances
  postfixed_advances := (postfixed_consumes hinner.leaves).advances
  signed_advances := (signed_consumes hinner.leaves).advances
  factor_advances := (factor_consumes hinner.leaves).advances
  term_advances := (term_consumes hinner.leaves).advances
  arithmetic_advances := (arithmetic_consumes hinner.leaves).advances
  comparison_advances := (comparison_consumes hinner.leaves).advances
  negation_advances := (negation_consumes hinner.leaves).advances
  conjunction_advances := (conjunction_consumes hinner.leaves).advances
  disjunction_advances := (disjunction_consumes hinner.leaves).advances
  elements_repeat := ((symbol_consumes .comma).step hinner.leaves).repeats
  trailers_repeat := (trailer_consumes hinner.leaves).repeats
  powers_repeat := (exponent_consumes hinner.leaves).repeats
  products_repeat :=
    (productOperator_consumes.step (factor_consumes hinner.leaves).leaves).repeats
  sums_repeat := (sumOperator_consumes.step (term_consumes hinner.leaves).leaves).repeats
  relations_repeat := (relation_consumes.step (arithmetic_consumes hinner.leaves).leaves).repeats
  conjuncts_repeat :=
    ((keyword_consumes .and).step (negation_consumes hinner.leaves).leaves).repeats
  disjuncts_repeat :=
    ((keyword_consumes .or).step (conjunction_consumes hinner.leaves).leaves).repeats

/-- Every reader leaves an end of its text, every repetition and every reader that is
entered again goes on behind at least one character, and so the recursion of the readers
ends on every text, with one result. -/
theorem reading_progresses :
    (∀ afterOperand c rest, (Token.read afterOperand c rest).2 <:+ rest) ∧
    (∀ expected, (symbol expected).Advances) ∧ (∀ expected, (keyword expected).Advances) ∧
    relation.Advances ∧ sumOperator.Advances ∧ productOperator.Advances ∧
    LeavesEnd signs ∧ LeavesEnd negations ∧
    LadderProgresses readExpression ∧ (∀ depth, LadderProgresses (expression depth)) ∧
    (∀ (e : Entries) afterOperand cs,
      (∀ operandBefore left, Past cs left →
        e.AgreesAt .ladder (tokensAfter operandBefore left)) →
      e.once.AgreesAt .ladder (tokensAfter afterOperand cs)) ∧
    Entries.ladder.once = .ladder ∧
    (∀ e : Entries, e.once = e → e = .ladder ∧ ∀ text, Expr.parse text = e.parse text) ∧
    (∀ depth tokens, tokens.length < depth →
      expression depth tokens = readExpression tokens) := by
  refine ⟨Token.read_suffix, fun expected => (symbol_consumes expected).advances,
    fun expected => (keyword_consumes expected).advances, relation_consumes.advances,
    sumOperator_consumes.advances, productOperator_consumes.advances,
    leavesEnd_of_suffix signs_suffix, leavesEnd_of_suffix negations_suffix,
    ladderProgresses readExpression_consumes,
    fun depth => ladderProgresses (expression_consumes depth), ?reentry,
    Entries.once_ladder, ?solution, fun _ _ => Entries.expression_eq_readExpression⟩
  case reentry =>
    intro e afterOperand cs hagrees
    rw [← Entries.once_ladder]
    apply Entries.once_agreesAt Entries.leaves_ladder
    intro rest hrest
    obtain ⟨operandBefore, left, hpast, rfl⟩ := exists_past_of_behind hrest
    exact hagrees operandBefore left hpast
  case solution =>
    intro e honce
    obtain rfl := Entries.eq_ladder honce
    exact ⟨rfl, fun text => (Entries.parse_ladder text).symm⟩

end RecordCondition
