import RecordCondition.Limits
import RecordCondition.Proofs.Expr.Equality
import RecordCondition.Proofs.Nesting.Reach
import RecordCondition.Proofs.Nesting.Shortfall
import RecordCondition.Proofs.Spelling.RoundTrip

/-!
# Nesting and depth

The depth of an expression is bounded by the nesting that is counted in its
text and by what that count misses of it.  Where the count misses nothing, a limit
on nesting is a limit on depth.  No such limit holds of every text: the sign of an
exponent ends the run of powers that are in force, and so a chain of them is as
deep as it is long and yet nests only once.
-/

namespace RecordCondition

theorem nestingDepth_eq_foldl {text : String}
    (hplaced : Placed false ((lex text).map Lexeme.token)) :
    nestingDepth text =
      ((lexWords false false text.toList).foldl Nesting.stepToken {}).deepest := by
  have hcompared : ({} : Nesting).Compared := Nat.le_refl _
  unfold lex at hplaced
  rw [← map_fst_lexWords false false] at hplaced
  have hscan := scanFrom_eq_foldl false false text.toList hcompared
    (fun hword => absurd hword Bool.false_ne_true) hplaced
  exact congrArg Nesting.deepest hscan

theorem Watch.sees_start : ({} : Watch).Sees {} where
  outer := .nil
  held := rfl
  inForce := Nat.le_refl _
  believes := rfl
  misled := fun hmisled => absurd hmisled Bool.false_ne_true

/-- The levels that are documented are those that are scanned and those that are
missed. -/
theorem deepest_le_nestingDepth {text : String}
    (hplaced : Placed false ((lex text).map Lexeme.token)) :
    ({} : Tally).deepest ((lex text).map Lexeme.token) ≤
      nestingDepth text + nestingShortfall text := by
  have hcompared : ({} : Nesting).Compared := Nat.le_refl _
  have hdeepest := Watch.sees_start.deepest_le false false text.toList hcompared
    (fun hword => absurd hword Bool.false_ne_true)
  rw [map_fst_lexWords, ← nestingDepth_eq_foldl hplaced] at hdeepest
  exact Nat.le_trans hdeepest (Nat.max_le.mpr ⟨Nat.zero_le _, Nat.le_refl _⟩)

theorem Expr.depth_le_nestingDepth_add_shortfall {text : String} {e : Expr}
    (hparse : Expr.parse text = .ok e) :
    e.depth ≤ nestingDepth text + nestingShortfall text := by
  have hspelled := Expr.spelled_of_parse hparse
  exact Nat.le_trans hspelled.depth_le (deepest_le_nestingDepth hspelled.operates.placed)

theorem Limits.all_check_iff {text : String} {depth : Nat} :
    (∀ limits : Limits, limits.check text = .ok () → depth ≤ limits.maxDepth) ↔
      depth ≤ nestingDepth text := by
  constructor
  · intro hlimits
    apply hlimits { maxLength := text.length, maxDepth := nestingDepth text }
    exact Limits.check_eq_ok_iff.mpr ⟨Nat.le_refl _, Nat.le_refl _⟩
  · intro hdepth limits hcheck
    exact Nat.le_trans hdepth (Limits.check_eq_ok_iff.mp hcheck).2

/-- The limits hold of the depth exactly where the nesting that is counted reaches
it.  That is so wherever the scan misses nothing, and elsewhere the depth goes beyond
by what is missed at most. -/
theorem Expr.limits_hold_iff_of_parse {text : String} {e : Expr}
    (hparse : Expr.parse text = .ok e) :
    ((∀ limits : Limits, limits.check text = .ok () → e.depth ≤ limits.maxDepth) ↔
        e.depth ≤ nestingDepth text) ∧
      (nestingShortfall text = 0 → e.depth ≤ nestingDepth text) ∧
      e.depth ≤ nestingDepth text + nestingShortfall text := by
  have hdepth := Expr.depth_le_nestingDepth_add_shortfall hparse
  refine ⟨Limits.all_check_iff, ?_, hdepth⟩
  intro hnone
  rw [hnone, Nat.add_zero] at hdepth
  exact hdepth

/-- A negation that is dropped at a comparison is missed nowhere if nothing is entered
before the junction. -/
theorem Expr.limits_hold_of_negated_comparison :
    ∃ e, Expr.parse "not a == b or -c" = .ok e ∧
      nestingShortfall "not a == b or -c" = 0 ∧
      e.depth ≤ nestingDepth "not a == b or -c" := by
  let e : Expr := .junction .or
    [.prefixed .not (.compare (.name "a") [.equal] [.name "b"]),
      .prefixed .minus (.name "c")]
  refine ⟨e, ?parse, ?none, (Expr.limits_hold_iff_of_parse ?parse).2.1 ?none⟩
  case parse => decide +kernel
  case none => decide +kernel

/-- An infix operator ends the negation in front of it, the sign of an exponent ends
the power in front of it, and behind a keyword that a number has swallowed a sign
is taken for an operator. -/
theorem nestingDepth_lt_depth :
    (∃ e, Expr.parse "not a == -b" = .ok e ∧ nestingDepth "not a == -b" < e.depth) ∧
    (∃ e, Expr.parse "not a in (b, c)" = .ok e ∧ nestingDepth "not a in (b, c)" < e.depth) ∧
    (∃ e, Expr.parse "a ** 1e-5 ** b" = .ok e ∧ nestingDepth "a ** 1e-5 ** b" < e.depth) ∧
    (∃ e, Expr.parse "1and -x" = .ok e ∧ nestingDepth "1and -x" < e.depth) := by
  refine ⟨⟨.prefixed .not (.compare (.name "a") [.equal] [.prefixed .minus (.name "b")]), ?_⟩,
    ⟨.prefixed .not (.compare (.name "a") [.in] [.tuple [.name "b", .name "c"]]), ?_⟩,
    ⟨.binary .power (.name "a")
      (.binary .power (.constant (.number "1e-5")) (.name "b")), ?_⟩,
    ⟨.junction .and [.constant (.number "1"), .prefixed .minus (.name "x")], ?_⟩⟩
  all_goals
    constructor <;> decide +kernel

end RecordCondition
