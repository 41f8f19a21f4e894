import RecordCondition.Proofs.Spelling.Completeness
import RecordCondition.Proofs.Spelling.Lexing
import RecordCondition.Proofs.Spelling.Canonical

/-!
# Written expressions are read back

However an expression is written out, with whatever redundant brackets and
blanks, its text is read as that expression and as no other.  Conversely the tokens
of a text that is read spell the expression that is read.
-/

namespace RecordCondition.Expr

theorem parse_eq_ok_iff {text : String} {e : Expr} :
    Expr.parse text = .ok e ↔
      Spelled (.expr .disjunction e) ((lex text).map Lexeme.token) := by
  rw [← readExpression_eq_some_iff]
  unfold Expr.parse
  dsimp only
  split
  · next value hread => simp [hread]
  · next hnone => simpa using hnone e

theorem spelled_of_parse {text : String} {e : Expr}
    (hparse : Expr.parse text = .ok e) :
    Spelled (.expr .disjunction e) ((lex text).map Lexeme.token) :=
  parse_eq_ok_iff.mp hparse

theorem lex_of_layout {tokens : List Token} {text : String}
    (hlayout : Layout false tokens text.toList) (hplaced : Placed false tokens) :
    (lex text).map Lexeme.token = tokens := by
  unfold lex
  exact hlayout.lexAfter_eq hplaced

theorem parse_of_writtenAs {e : Expr} {text : String} (hwritten : e.WrittenAs text) :
    Expr.parse text = .ok e := by
  obtain ⟨tokens, hspelled, hlayout⟩ := hwritten
  have htokens := lex_of_layout hlayout hspelled.operates.placed
  have hread := readExpression_eq_some_iff.mpr hspelled
  unfold Expr.parse
  simp only [htokens, hread]

/-- A text is written out from one expression at most. -/
theorem eq_of_writtenAs {first second : Expr} {text : String}
    (hfirst : first.WrittenAs text) (hsecond : second.WrittenAs text) :
    first = second := by
  have hread := parse_of_writtenAs hfirst
  rw [parse_of_writtenAs hsecond] at hread
  exact (Except.ok.inj hread).symm

/-- The expressions that can be written out at all are the well-formed ones, and
every text that writes one out is read as it. -/
theorem parse_writtenAs (e : Expr) :
    (e.WellFormed ↔ ∃ text, e.WrittenAs text) ∧
      ∀ text, e.WrittenAs text → Expr.parse text = .ok e := by
  constructor
  · exact wellFormed_iff_exists_writtenAs e
  · intro text hwritten
    exact parse_of_writtenAs hwritten

end RecordCondition.Expr
