import RecordCondition.Proofs.Build.Tests
import RecordCondition.Proofs.Predicate.Algebra
import RecordCondition.Proofs.Predicate.Alike
import RecordCondition.Proofs.Spelling.Lexing

/-!
# The text of a predicate tells its tree

No two reduced predicates have the same text, apart from what their leaves test, when
no blank and no bracket stands in their leaves and no `=` in the names of their fields.
A leaf is the only word with `=` in it.  Behind a predicate stands a blank or a closing
bracket, or nothing, so the text of a member of a group ends where the next one begins.
-/

namespace RecordCondition

variable {R S : Type}

/-- Two texts that are cut at the first character without a property are cut alike. -/
theorem append_inj_of_leading {p : Char → Bool} {word other rest after : List Char}
    (hword : ∀ c ∈ word, p c = true) (hother : ∀ c ∈ other, p c = true)
    (hrest : Leading (fun c => p c = false) rest)
    (hafter : Leading (fun c => p c = false) after)
    (heq : word ++ rest = other ++ after) : word = other ∧ rest = after := by
  constructor
  · rw [← takeWhile_append hword hrest, heq, takeWhile_append hother hafter]
  · rw [← dropWhile_append hword hrest, heq, dropWhile_append hother hafter]

/-! ## Leaves -/

def isOutsideLeaf (c : Char) : Bool :=
  c = ' ' || c = '(' || c = ')'

/-- The leaf can be told from what stands around it, and its field from its value. -/
structure Leaf.Plain (leaf : Leaf R) : Prop where
  field : ∀ c ∈ leaf.field.toList, isOutsideLeaf c = false ∧ c ≠ '='
  value : ∀ c ∈ leaf.value.toList, isOutsideLeaf c = false

theorem Lookup.mem_name (lookup : Lookup) :
    ∀ c ∈ lookup.name.toList, isOutsideLeaf c = false ∧ c ≠ '=' ∧ c ≠ '_' := by
  cases lookup <;> simp [Lookup.name, isOutsideLeaf]

theorem Lookup.name_inj {lookup other : Lookup} (heq : lookup.name = other.name) :
    lookup = other := by
  cases lookup <;> cases other <;> first | rfl | exact absurd heq (by decide)

def Leaf.head (leaf : Leaf R) : List Char :=
  leaf.field.toList ++ '_' :: '_' :: leaf.lookup.name.toList

theorem Leaf.toList_display (leaf : Leaf R) :
    leaf.display.toList = leaf.head ++ '=' :: leaf.value.toList := by
  change (leaf.field ++ "__" ++ leaf.lookup.name ++ "=" ++ leaf.value).toList = _
  simp [Leaf.head]

namespace Leaf.Plain

variable {leaf : Leaf R} {other : Leaf S}

theorem mem_head (hplain : leaf.Plain) :
    ∀ c ∈ leaf.head, isOutsideLeaf c = false ∧ c ≠ '=' := by
  have hname := leaf.lookup.mem_name
  unfold Leaf.head
  simp only [List.forall_mem_append, List.forall_mem_cons]
  refine ⟨hplain.field, by decide, by decide, ?_⟩
  exact fun c hc => ⟨(hname c hc).1, (hname c hc).2.1⟩

theorem mem_display (hplain : leaf.Plain) :
    ∀ c ∈ leaf.display.toList, (!isOutsideLeaf c) = true := by
  rw [leaf.toList_display]
  simp only [List.forall_mem_append, List.forall_mem_cons, Bool.not_eq_true']
  exact ⟨fun c hc => (hplain.mem_head c hc).1, by decide, hplain.value⟩

theorem head_inj (heq : leaf.head = other.head) :
    leaf.field = other.field ∧ leaf.lookup = other.lookup := by
  -- A field may end in underscores, but no lookup has one, so they are told apart from behind.
  have hreverse := congrArg List.reverse heq
  simp only [Leaf.head, List.reverse_append, List.reverse_cons, List.append_assoc,
    List.cons_append, List.nil_append] at hreverse
  have hname : ∀ lookup : Lookup, ∀ c ∈ lookup.name.toList.reverse, (c != '_') = true := by
    intro lookup c hc
    exact bne_iff_ne.mpr (lookup.mem_name c (List.mem_reverse.mp hc)).2.2
  obtain ⟨hlookup, hfield⟩ := append_inj_of_leading (hname _) (hname _)
    (Leading.cons (by decide) _) (Leading.cons (by decide) _) hreverse
  rw [List.reverse_inj, String.toList_inj] at hlookup
  simp only [List.cons.injEq, List.reverse_inj, String.toList_inj, true_and] at hfield
  exact ⟨hfield, Lookup.name_inj hlookup⟩

theorem display_inj (hleaf : leaf.Plain) (hother : other.Plain)
    (heq : leaf.display.toList = other.display.toList) :
    leaf.Alike (fun _ _ => False) other := by
  rw [leaf.toList_display, other.toList_display] at heq
  have hhead : ∀ {T : Type} {leaf : Leaf T}, leaf.Plain → ∀ c ∈ leaf.head, (c != '=') = true :=
    fun hplain c hc => bne_iff_ne.mpr (hplain.mem_head c hc).2
  obtain ⟨hhead, hvalue⟩ := append_inj_of_leading (hhead hleaf) (hhead hother)
    (Leading.cons (by decide) _) (Leading.cons (by decide) _) heq
  simp only [List.cons.injEq, String.toList_inj, true_and] at hvalue
  obtain ⟨hfield, hlookup⟩ := head_inj hhead
  exact ⟨hfield, hlookup, hvalue, fun _ _ hfalse => hfalse.elim⟩

end Leaf.Plain

namespace Predicate

/-! ## Texts of the forms of predicates -/

/-- The predicates are the same tree with the same fields, lookups and values at its leaves.
Nothing is asked of the answers of the leaves, as no two records correspond. -/
def SameTree : Predicate R → Predicate S → Prop :=
  Alike fun _ _ => False

def chars (predicate : Predicate R) : List Char :=
  predicate.display.toList

def separator : Junction → String
  | .and => " AND "
  | .or => " OR "

/-- The members of a group behind the first one. -/
def followers (op : Junction) (predicates : List (Predicate R)) : List Char :=
  predicates.flatMap fun predicate => (separator op).toList ++ predicate.chars

theorem chars_leaf (test : Leaf R) : (leaf test).chars = test.display.toList := rfl

/-- The text behind a `NOT`, where a leaf stands in brackets. -/
def operandChars : Predicate R → List Char
  | .leaf test => '(' :: (test.display.toList ++ [')'])
  | predicate => predicate.chars

theorem operandChars_of_ne_leaf {predicate : Predicate R}
    (hleaf : ∀ test, predicate ≠ .leaf test) : predicate.operandChars = predicate.chars := by
  cases predicate with
  | leaf test => exact absurd rfl (hleaf test)
  | _ => rfl

theorem chars_not (predicate : Predicate R) :
    (not predicate).chars = "NOT ".toList ++ predicate.operandChars := by
  cases predicate <;> simp [chars, display, operandChars]

theorem intercalate_displays (op : Junction) (first : Predicate R)
    (others : List (Predicate R)) :
    ((separator op).intercalate (displays (first :: others))).toList =
      first.chars ++ followers op others := by
  induction others generalizing first with
  | nil => simp [displays, followers, chars]
  | cons next others ih =>
      rw [displays, displays, String.intercalate_cons_cons, ← displays]
      simp only [String.toList_append, ih, followers, List.flatMap_cons, List.append_assoc]
      rfl

theorem chars_group (op : Junction) (first : Predicate R) (others : List (Predicate R)) :
    (group op (first :: others)).chars =
      '(' :: (first.chars ++ (followers op others ++ [')'])) := by
  have hdisplay : (group op (first :: others)).display =
      "(" ++ (separator op).intercalate (displays (first :: others)) ++ ")" := by
    cases op <;> rfl
  rw [chars, hdisplay, String.toList_append, String.toList_append, intercalate_displays,
    List.append_assoc]
  simp only [List.append_assoc]
  rfl

/-! ## Where a text ends -/

/-- What may stand behind a predicate. -/
def Ends (cs : List Char) : Prop :=
  Leading (fun c => c = ' ' ∨ c = ')') cs

theorem Ends.leading {cs : List Char} (hends : Ends cs) :
    Leading (fun c => (!isOutsideLeaf c) = false) cs := by
  refine hends.mono ?_
  rintro c (rfl | rfl) <;> decide

theorem ends_followers (op : Junction) (predicates : List (Predicate R)) (rest : List Char) :
    Ends (followers op predicates ++ ')' :: rest) := by
  cases predicates with
  | nil => exact Leading.cons (Or.inr rfl) _
  | cons predicate predicates => cases op <;> exact Leading.cons (Or.inl rfl) _

def Plain (predicate : Predicate R) : Prop :=
  ∀ leaf ∈ predicate.leaves, leaf.Plain

theorem mem_leavesOf {predicates : List (Predicate R)} {predicate : Predicate R}
    (hmem : predicate ∈ predicates) {leaf : Leaf R} (hleaf : leaf ∈ predicate.leaves) :
    leaf ∈ leavesOf predicates := by
  induction predicates with
  | nil => cases hmem
  | cons first predicates ih =>
      rw [leavesOf, List.mem_append]
      rcases List.mem_cons.mp hmem with rfl | hmem
      · exact Or.inl hleaf
      · exact Or.inr (ih hmem)

theorem Plain.of_mem {op : Junction} {predicates : List (Predicate R)}
    (hplain : (group op predicates).Plain) {predicate : Predicate R}
    (hmem : predicate ∈ predicates) : predicate.Plain := by
  intro leaf hleaf
  apply hplain
  cases op <;> exact mem_leavesOf hmem hleaf

theorem Plain.leaf {test : Leaf R} (hplain : (Predicate.leaf test).Plain) : test.Plain :=
  hplain test (List.mem_singleton_self test)

/-! ## Reduced predicates -/

/-- The forms of a reduced predicate, with both kinds of group at once. -/
theorem Reduced.forms {predicate : Predicate R} (hreduced : predicate.Reduced) :
    (∃ test, predicate = .leaf test) ∨
      (∃ inner, predicate = .not inner ∧ inner.Reduced) ∨
      ∃ op first next others, predicate = Predicate.group op (first :: next :: others) ∧
        ∀ member ∈ first :: next :: others, member.Reduced := by
  have hgroup : ∀ (op : Junction) (predicates : List (Predicate R)), 2 ≤ predicates.length →
      (∀ member ∈ predicates, member.Reduced) →
      ∃ kind first next others,
        Predicate.group op predicates = Predicate.group kind (first :: next :: others) ∧
          ∀ member ∈ first :: next :: others, member.Reduced := by
    intro op predicates hlength hmembers
    match predicates, hlength with
    | first :: next :: others, _ => exact ⟨op, first, next, others, rfl, hmembers⟩
  cases hreduced with
  | leaf test => exact Or.inl ⟨test, rfl⟩
  | not hinner _ => exact Or.inr (Or.inl ⟨_, rfl, hinner⟩)
  | and hlength hmembers _ => exact Or.inr (Or.inr (hgroup .and _ hlength hmembers))
  | or hlength hmembers _ => exact Or.inr (Or.inr (hgroup .or _ hlength hmembers))

/-- The text of a leaf begins the text of a leaf only. -/
theorem alike_of_leaf_append {test : Leaf R} {predicate : Predicate S} {rest after : List Char}
    (htest : test.Plain) (hreduced : predicate.Reduced) (hplain : predicate.Plain)
    (hrest : Ends rest) (hafter : Ends after)
    (heq : test.display.toList ++ rest = predicate.chars ++ after) :
    ∃ other, predicate = .leaf other ∧ test.Alike (fun _ _ => False) other ∧ rest = after := by
  have hmark : '=' ∈ test.display.toList := by
    rw [test.toList_display]
    exact List.mem_append_right _ List.mem_cons_self
  rcases hreduced.forms with ⟨other, rfl⟩ | ⟨inner, rfl, -⟩ | ⟨op, first, next, others, rfl, -⟩
  · obtain ⟨htexts, hbehind⟩ := append_inj_of_leading htest.mem_display
      hplain.leaf.mem_display hrest.leading hafter.leading heq
    exact ⟨other, rfl, htest.display_inj hplain.leaf htexts, hbehind⟩
  · have hword : test.display.toList ++ rest =
        "NOT".toList ++ ' ' :: (inner.operandChars ++ after) := by
      rw [heq, chars_not]
      rfl
    obtain ⟨hnot, -⟩ := append_inj_of_leading htest.mem_display (by simp [isOutsideLeaf])
      hrest.leading (Leading.cons (by decide) _) hword
    rw [hnot] at hmark
    exact absurd hmark (by decide)
  · rw [chars_group, List.cons_append] at heq
    have hempty : test.display.toList ++ rest =
        [] ++ '(' :: (first.chars ++ (followers op (next :: others) ++ ([')'] ++ after))) := by
      simpa using heq
    obtain ⟨hnone, -⟩ := append_inj_of_leading htest.mem_display
      (fun _ hmem => absurd hmem List.not_mem_nil) hrest.leading (Leading.cons (by decide) _)
      hempty
    rw [hnone] at hmark
    cases hmark

/-- Behind the bracket of a negated leaf stands no predicate but a leaf. -/
theorem enclosed_leaf_ne {test : Leaf R} {predicate : Predicate S} {rest after : List Char}
    (htest : test.Plain) (hreduced : predicate.Reduced) (hplain : predicate.Plain)
    (hleaf : ∀ other, predicate ≠ .leaf other) :
    '(' :: (test.display.toList ++ ')' :: rest) ≠ predicate.chars ++ after := by
  intro heq
  rcases hreduced.forms with ⟨other, rfl⟩ | ⟨inner, rfl, -⟩ |
    ⟨op, first, next, others, rfl, hmembers⟩
  · exact hleaf other rfl
  · rw [chars_not] at heq
    exact absurd (List.cons.inj heq).1 (by decide)
  · rw [chars_group, List.cons_append, List.cons.injEq, List.append_assoc,
      List.append_assoc, List.singleton_append] at heq
    obtain ⟨-, -, -, hbehind⟩ := alike_of_leaf_append htest
      (hmembers first List.mem_cons_self) (hplain.of_mem List.mem_cons_self)
      (Leading.cons (Or.inr rfl) rest) (ends_followers op (next :: others) after) heq.2
    cases op <;> exact absurd (List.cons.inj hbehind).1 (by decide)

/-- The text of the predicate, with whatever may stand behind it, is that of the same
tree only. -/
def Determined (S : Type) (predicate : Predicate R) : Prop :=
  predicate.Plain → ∀ (other : Predicate S) (rest after : List Char), other.Reduced →
    other.Plain → Ends rest → Ends after →
    predicate.chars ++ rest = other.chars ++ after → predicate.SameTree other ∧ rest = after

theorem determined_leaf (test : Leaf R) : (Predicate.leaf test).Determined S := by
  intro hplain other rest after hother hotherPlain hrest hafter heq
  obtain ⟨found, rfl, halike, hbehind⟩ :=
    alike_of_leaf_append hplain.leaf hother hotherPlain hrest hafter heq
  exact ⟨.leaf halike, hbehind⟩

theorem Determined.operand {inner : Predicate R} {operand : Predicate S}
    (hinner : inner.Determined S) (hreduced : inner.Reduced) (hplain : inner.Plain)
    (hoperand : operand.Reduced) (hoperandPlain : operand.Plain) {rest after : List Char}
    (hrest : Ends rest) (hafter : Ends after)
    (heq : inner.operandChars ++ rest = operand.operandChars ++ after) :
    inner.SameTree operand ∧ rest = after := by
  by_cases hleaf : ∃ test, inner = .leaf test
  · obtain ⟨test, rfl⟩ := hleaf
    rw [operandChars, List.cons_append, List.append_assoc, List.singleton_append] at heq
    by_cases hother : ∃ other, operand = .leaf other
    · obtain ⟨other, rfl⟩ := hother
      rw [operandChars, List.cons_append, List.append_assoc, List.singleton_append] at heq
      obtain ⟨hsame, hbehind⟩ := determined_leaf test hplain (.leaf other) _ _ hoperand
        hoperandPlain (Leading.cons (Or.inr rfl) rest) (Leading.cons (Or.inr rfl) after)
        (List.cons.inj heq).2
      exact ⟨hsame, (List.cons.inj hbehind).2⟩
    · have hnone := fun other heq => hother ⟨other, heq⟩
      rw [operandChars_of_ne_leaf hnone] at heq
      exact absurd heq (enclosed_leaf_ne hplain.leaf hoperand hoperandPlain hnone)
  · have hnone := fun test heq => hleaf ⟨test, heq⟩
    rw [operandChars_of_ne_leaf hnone] at heq
    by_cases hother : ∃ other, operand = .leaf other
    · obtain ⟨other, rfl⟩ := hother
      rw [operandChars, List.cons_append, List.append_assoc, List.singleton_append] at heq
      exact absurd heq.symm (enclosed_leaf_ne hoperandPlain.leaf hreduced hplain hnone)
    · rw [operandChars_of_ne_leaf fun other heq => hother ⟨other, heq⟩] at heq
      exact hinner hplain operand rest after hoperand hoperandPlain hrest hafter heq

theorem Determined.not {inner : Predicate R} (hreduced : inner.Reduced)
    (hnot : ∀ deeper, inner ≠ .not deeper) (hinner : inner.Determined S) :
    (Predicate.not inner).Determined S := by
  intro hplain other rest after hother hotherPlain hrest hafter heq
  rcases hother.forms with ⟨test, rfl⟩ | ⟨operand, rfl, hoperand⟩ |
    ⟨op, first, next, others, rfl, -⟩
  · obtain ⟨found, hfound, -⟩ := alike_of_leaf_append hotherPlain.leaf
      (.not hreduced hnot) hplain hafter hrest heq.symm
    cases hfound
  · rw [chars_not, chars_not, List.append_assoc, List.append_assoc,
      List.append_cancel_left_eq] at heq
    obtain ⟨hsame, hbehind⟩ :=
      hinner.operand hreduced hplain hoperand hotherPlain hrest hafter heq
    exact ⟨.not hsame, hbehind⟩
  · rw [chars_not, chars_group] at heq
    exact absurd (List.cons.inj heq).1 (by decide)

theorem followers_cons (op : Junction) (predicate : Predicate R)
    (predicates : List (Predicate R)) :
    followers op (predicate :: predicates) =
      (separator op).toList ++ (predicate.chars ++ followers op predicates) := by
  rw [followers, List.flatMap_cons, List.append_assoc]
  rfl

theorem exists_separator (op : Junction) : ∃ cs, (separator op).toList = ' ' :: cs := by
  cases op <;> exact ⟨_, rfl⟩

theorem followers_determined {op : Junction} {members : List (Predicate R)}
    (hmembers : ∀ member ∈ members, member.Determined S)
    (hplain : ∀ member ∈ members, member.Plain) {others : List (Predicate S)}
    (hothers : ∀ other ∈ others, other.Reduced)
    (hothersPlain : ∀ other ∈ others, other.Plain) {rest after : List Char}
    (heq : followers op members ++ ')' :: rest = followers op others ++ ')' :: after) :
    List.Forall₂ SameTree members others ∧ rest = after := by
  obtain ⟨cs, hseparator⟩ := exists_separator op
  induction members generalizing others with
  | nil =>
      cases others with
      | nil => exact ⟨.nil, (List.cons.inj heq).2⟩
      | cons other others =>
          rw [followers_cons, hseparator] at heq
          exact absurd (List.cons.inj heq).1 (by decide)
  | cons member members ih =>
      cases others with
      | nil =>
          rw [followers_cons, hseparator] at heq
          exact absurd (List.cons.inj heq).1 (by decide)
      | cons other others =>
          simp only [List.forall_mem_cons] at hmembers hplain hothers hothersPlain
          simp only [followers_cons, List.append_assoc, List.append_cancel_left_eq] at heq
          obtain ⟨hsame, hbehind⟩ := hmembers.1 hplain.1 other _ _ hothers.1 hothersPlain.1
            (ends_followers op members rest) (ends_followers op others after) heq
          obtain ⟨hall, hend⟩ := ih hmembers.2 hplain.2 hothers.2 hothersPlain.2 hbehind
          exact ⟨.cons hsame hall, hend⟩

theorem Determined.group (op : Junction) {first next : Predicate R}
    {others : List (Predicate R)}
    (hreduced : (Predicate.group op (first :: next :: others)).Reduced)
    (hmembers : ∀ member ∈ first :: next :: others, member.Determined S) :
    (Predicate.group op (first :: next :: others)).Determined S := by
  intro hplain other rest after hother hotherPlain hrest hafter heq
  rcases hother.forms with ⟨test, rfl⟩ | ⟨operand, rfl, -⟩ |
    ⟨kind, head, second, members, rfl, hheads⟩
  · obtain ⟨found, hfound, -⟩ := alike_of_leaf_append hotherPlain.leaf hreduced hplain hafter
      hrest heq.symm
    cases op <;> cases hfound
  · rw [chars_not, chars_group] at heq
    exact absurd (List.cons.inj heq).1 (by decide)
  · have hmembersPlain : ∀ member ∈ first :: next :: others, member.Plain :=
      fun _ => hplain.of_mem
    have hheadsPlain : ∀ member ∈ head :: second :: members, member.Plain :=
      fun _ => hotherPlain.of_mem
    simp only [chars_group, List.cons_append, List.cons.injEq, true_and, List.append_assoc,
      List.nil_append] at heq
    rw [List.forall_mem_cons] at hmembers hmembersPlain hheads hheadsPlain
    obtain ⟨hsame, hbehind⟩ := hmembers.1 hmembersPlain.1 head _ _ hheads.1 hheadsPlain.1
      (ends_followers op (next :: others) rest) (ends_followers kind (second :: members) after)
      heq
    have hkind : op = kind := by
      rw [followers_cons, followers_cons] at hbehind
      cases op <;> cases kind <;>
        first | rfl | exact absurd (List.cons.inj (List.cons.inj hbehind).2).1 (by decide)
    subst hkind
    obtain ⟨hall, hend⟩ := followers_determined hmembers.2 hmembersPlain.2 hheads.2
      hheadsPlain.2 hbehind
    refine ⟨?_, hend⟩
    cases op
    · exact .and (.cons hsame hall)
    · exact .or (.cons hsame hall)

theorem Reduced.determined {predicate : Predicate R} (hreduced : predicate.Reduced) :
    predicate.Determined S := by
  have hgroup : ∀ (op : Junction) (predicates : List (Predicate R)),
      2 ≤ predicates.length → (Predicate.group op predicates).Reduced →
      (∀ member ∈ predicates, member.Determined S) →
      (Predicate.group op predicates).Determined S := by
    intro op predicates hlength hwhole hmembers
    match predicates, hlength with
    | first :: next :: others, _ => exact Determined.group op hwhole hmembers
  induction hreduced with
  | leaf test => exact determined_leaf test
  | not hinner hnot ih => exact .not hinner hnot ih
  | and hlength hmembers hother ih =>
      exact hgroup .and _ hlength (.and hlength hmembers hother) ih
  | or hlength hmembers hother ih =>
      exact hgroup .or _ hlength (.or hlength hmembers hother) ih

theorem chars_ne_empty {predicate : Predicate R} (hreduced : predicate.Reduced) :
    predicate.chars ≠ "()".toList := by
  intro heq
  rcases hreduced.forms with ⟨test, rfl⟩ | ⟨inner, rfl, -⟩ | ⟨op, first, next, others, rfl, -⟩
  · have hmark : '=' ∈ (leaf test).chars := by
      rw [chars_leaf, test.toList_display]
      exact List.mem_append_right _ List.mem_cons_self
    rw [heq] at hmark
    exact absurd hmark (by decide)
  · rw [chars_not] at heq
    exact absurd (List.cons.inj heq).1 (by decide)
  · obtain ⟨cs, hseparator⟩ := exists_separator op
    have hblank : ' ' ∈ (group op (first :: next :: others)).chars := by
      rw [chars_group, followers_cons, hseparator]
      simp
    rw [heq] at hblank
    exact absurd hblank (by decide)

theorem SameTree.display_eq {predicate : Predicate R} {other : Predicate S}
    (hsame : predicate.SameTree other) : predicate.display = other.display :=
  Alike.display_eq hsame

theorem Reduced.sameTree_of_display {predicate : Predicate R} {other : Predicate S}
    (hreduced : predicate.Reduced) (hother : other.Reduced) (hplain : predicate.Plain)
    (hotherPlain : other.Plain) (heq : predicate.display = other.display) :
    predicate.SameTree other := by
  have hends : Ends [] := Leading.nil _
  have hchars : predicate.chars ++ [] = other.chars ++ [] := by
    rw [chars, chars, heq]
  exact (hreduced.determined hplain other [] [] hother hotherPlain hends hends hchars).1

/-! ## Built predicates -/

theorem Composed.joinAll (op : Junction) {predicates : List (Predicate R)}
    (hall : ∀ predicate ∈ predicates, predicate.Composed) : (joinAll op predicates).Composed := by
  have hfold : ∀ start : Predicate R, start.Composed →
      (predicates.foldl (join op) start).Composed := by
    induction predicates with
    | nil => exact fun _ hstart => hstart
    | cons predicate predicates ih =>
        rw [List.forall_mem_cons] at hall
        intro start hstart
        apply ih hall.2
        cases op with
        | and => exact .both hstart hall.1
        | or => exact .either hstart hall.1
  rw [joinAll_eq_foldl]
  exact hfold .empty .empty

end Predicate

namespace Registry

variable (registry : Registry R)

theorem composed_of_buildComparison {comparison : Comparison} {predicate : Predicate R}
    (hbuild : registry.buildComparison comparison = .ok predicate) : predicate.Composed := by
  unfold buildComparison at hbuild
  dsimp only at hbuild
  split at hbuild
  · cases hbuild
  · split at hbuild
    · cases hbuild
    · obtain rfl := Except.ok.inj hbuild
      split
      · exact .negate (.leaf _)
      · exact .leaf _

theorem composed_of_build {e : Expr} {predicate : Predicate R}
    (hbuild : registry.build e = .ok predicate) : predicate.Composed := by
  induction e generalizing predicate with
  | junction op values ih =>
      obtain ⟨predicates, hvalues, rfl⟩ := registry.build_junction_eq_ok_iff.mp hbuild
      apply Predicate.Composed.joinAll
      clear hbuild
      induction hvalues with
      | nil => simp
      | cons hvalue _ ihvalues =>
          rw [List.forall_mem_cons] at ih ⊢
          exact ⟨ih.1 hvalue, ihvalues ih.2⟩
  | compare left relations operands _ _ =>
      obtain ⟨pairs, predicates, -, hall, rfl⟩ :=
        registry.build_compare_eq_ok_iff.mp hbuild
      apply Predicate.Composed.joinAll
      clear hbuild
      induction hall with
      | nil => simp
      | cons hpair _ ih =>
          rw [List.forall_mem_cons]
          exact ⟨registry.composed_of_buildComparison hpair, ih⟩
  | _ => cases hbuild

end Registry

/-- Two predicates that are made by joining and negating, as built ones are, have the same
text only if they are the same tree with the same leaves. -/
theorem Predicate.display_eq_iff_sameTree :
    (∀ (predicate : Predicate R) (other : Predicate S), predicate.Composed → other.Composed →
      (∀ leaf ∈ predicate.leaves, leaf.Plain) → (∀ leaf ∈ other.leaves, leaf.Plain) →
      (predicate.display = other.display ↔ predicate.SameTree other)) ∧
    ∀ (registry : Registry R) (e : Expr) (predicate : Predicate R),
      registry.build e = .ok predicate → predicate.Composed := by
  refine ⟨?text, fun registry _ _ => registry.composed_of_build⟩
  case text =>
    intro predicate other hcomposed hother hplain hotherPlain
    refine ⟨?_, SameTree.display_eq⟩
    intro heq
    have hchars : predicate.chars = other.chars := congrArg String.toList heq
    rcases hcomposed.eq_empty_or_reduced with rfl | hreduced <;>
      rcases hother.eq_empty_or_reduced with rfl | hreducedOther
    · exact .empty
    · exact absurd hchars.symm (chars_ne_empty hreducedOther)
    · exact absurd hchars (chars_ne_empty hreduced)
    · exact hreduced.sameTree_of_display hreducedOther hplain hotherPlain heq

/-- Fields that end in underscores, values with `=` in them, and groups that were joined
in another order. -/
theorem Predicate.display_eq_iff_sameTree_nested :
    let low : Leaf Nat := ⟨"a_", .exact, "b=1", fun n => n == 1⟩
    let high : Leaf Nat := ⟨"_b", .less, "", fun n => n < 5⟩
    let answering : Leaf Nat → Leaf Bool := fun leaf =>
      ⟨leaf.field, leaf.lookup, leaf.value, fun answer => answer⟩
    let first : Predicate Nat :=
      .both (.negate (.leaf low)) (.both (.either (.leaf low) (.leaf high)) (.leaf high))
    let second : Predicate Bool :=
      .both
        (.both (.negate (.leaf (answering low)))
          (.either (.leaf (answering low)) (.leaf (answering high))))
        (.leaf (answering high))
    first.display = "(NOT (a___exact=b=1) AND (a___exact=b=1 OR _b__lt=) AND _b__lt=)" ∧
      first.display = second.display ∧ first.SameTree second := by
  intro low high answering first second
  have hlow : low.Plain := by constructor <;> simp [low, isOutsideLeaf]
  have hhigh : high.Plain := by constructor <;> simp [high, isOutsideLeaf]
  have hplain : ∀ leaf ∈ [low, low, high, high], leaf.Plain := by
    simpa only [List.forall_mem_cons] using ⟨hlow, hlow, hhigh, hhigh, by simp⟩
  have hanswering : ∀ leaf ∈ [low, low, high, high].map answering, leaf.Plain := by
    intro leaf hleaf
    obtain ⟨source, hsource, rfl⟩ := List.mem_map.mp hleaf
    exact ⟨(hplain source hsource).field, (hplain source hsource).value⟩
  have hfirst : first.Composed :=
    .both (.negate (.leaf _)) (.both (.either (.leaf _) (.leaf _)) (.leaf _))
  have hsecond : second.Composed :=
    .both (.both (.negate (.leaf _)) (.either (.leaf _) (.leaf _))) (.leaf _)
  have heq : first.display = second.display := rfl
  exact ⟨by decide, heq, (display_eq_iff_sameTree.1 first second hfirst hsecond hplain
    hanswering).mp heq⟩

end RecordCondition
