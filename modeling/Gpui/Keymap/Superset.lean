import Gpui.Keymap.Context

/-!
# Soundness of `is_superset`

`is_superset` compares syntax: some alternative of one predicate has to occur
among the conjuncts of the other, or below its `>`.  A predicate below `>` is
evaluated in a smaller stack, where a negation sees fewer contexts, so such an
occurrence is only conclusive when the predicate survives in a larger stack.
-/

namespace Gpui

namespace KeyBindingContextPredicate

/-! ## What the comparison finds -/

/-- The disjunctions and disjuncts on the `||` spine. -/
def alternatives : KeyBindingContextPredicate → List KeyBindingContextPredicate
  | or left right => or left right :: (left.alternatives ++ right.alternatives)
  | self => [self]

/-- The conjunctions and conjuncts on the `&&` spine. -/
def conjuncts : KeyBindingContextPredicate → List KeyBindingContextPredicate
  | and left right => and left right :: (left.conjuncts ++ right.conjuncts)
  | self => [self]

/-- What the comparison reaches through `&&` and below `>`. -/
def parts : KeyBindingContextPredicate → List KeyBindingContextPredicate
  | and left right => and left right :: (left.parts ++ right.parts)
  | descendant parent child => descendant parent child :: child.parts
  | self => [self]

/-- The parts below at least one `>`. -/
def belowChild : KeyBindingContextPredicate → List KeyBindingContextPredicate
  | and left right => left.belowChild ++ right.belowChild
  | descendant _ child => child.parts
  | _ => []

theorem mem_parts {self part : KeyBindingContextPredicate} (member : part ∈ self.parts) :
    part ∈ self.conjuncts ∨ part ∈ self.belowChild := by
  induction self with
  | and left right leftIh rightIh =>
      simp only [parts, conjuncts, belowChild, List.mem_cons, List.mem_append] at member ⊢
      rcases member with here | inLeft | inRight
      · exact Or.inl (Or.inl here)
      · rcases leftIh inLeft with found | found <;> simp [found]
      · rcases rightIh inRight with found | found <;> simp [found]
  | descendant parent child _ _ =>
      simpa [parts, conjuncts, belowChild] using member
  | identifier _ => exact Or.inl member
  | equal _ _ => exact Or.inl member
  | notEqual _ _ => exact Or.inl member
  | not _ _ => exact Or.inl member
  | or _ _ _ _ => exact Or.inl member

theorem self_mem_parts (self : KeyBindingContextPredicate) : self ∈ self.parts := by
  cases self <;> simp [parts]

theorem self_mem_alternatives (self : KeyBindingContextPredicate) :
    self ∈ self.alternatives := by
  cases self <;> simp [alternatives]

theorem mem_parts_of_isSupersetWithin {self other : KeyBindingContextPredicate}
    (found : self.isSupersetWithin other = true) : self ∈ other.parts := by
  induction other with
  | descendant parent child _ childIh =>
      simp only [isSupersetWithin, Bool.or_eq_true, decide_eq_true_eq] at found
      rcases found with rfl | below
      · exact self_mem_parts _
      · exact List.mem_cons_of_mem _ (childIh below)
  | and left right leftIh rightIh =>
      simp only [isSupersetWithin, Bool.or_eq_true, decide_eq_true_eq] at found
      rcases found with rfl | inLeft | inRight
      · exact self_mem_parts _
      · exact List.mem_cons_of_mem _ (List.mem_append_left _ (leftIh inLeft))
      · exact List.mem_cons_of_mem _ (List.mem_append_right _ (rightIh inRight))
  | identifier _ => exact List.mem_singleton.mpr (of_decide_eq_true found)
  | equal _ _ => exact List.mem_singleton.mpr (of_decide_eq_true found)
  | notEqual _ _ => exact List.mem_singleton.mpr (of_decide_eq_true found)
  | not _ _ => exact List.mem_singleton.mpr (of_decide_eq_true found)
  | or _ _ _ _ => exact List.mem_singleton.mpr (of_decide_eq_true found)

/-- Some alternative of `self` occurs in `other`. -/
theorem exists_part_of_isSuperset {self other : KeyBindingContextPredicate}
    (superset : self.isSuperset other = true) :
    ∃ part ∈ self.alternatives, part ∈ other.parts := by
  have whole : ∀ {predicate : KeyBindingContextPredicate},
      predicate.isSupersetWithin other = true →
        ∃ part ∈ predicate.alternatives, part ∈ other.parts := fun {predicate} found =>
    ⟨predicate, self_mem_alternatives predicate, mem_parts_of_isSupersetWithin found⟩
  induction self with
  | or left right leftIh rightIh =>
      simp only [isSuperset, Bool.or_eq_true, decide_eq_true_eq] at superset
      rcases superset with rfl | fromLeft | fromRight
      · exact ⟨_, self_mem_alternatives _, self_mem_parts _⟩
      · obtain ⟨part, isAlternative, isPart⟩ := leftIh fromLeft
        exact ⟨part, List.mem_cons_of_mem _ (List.mem_append_left _ isAlternative), isPart⟩
      · obtain ⟨part, isAlternative, isPart⟩ := rightIh fromRight
        exact ⟨part, List.mem_cons_of_mem _ (List.mem_append_right _ isAlternative), isPart⟩
  | identifier _ => exact whole superset
  | equal _ _ => exact whole superset
  | notEqual _ _ => exact whole superset
  | descendant _ _ _ _ => exact whole superset
  | not _ _ => exact whole superset
  | and _ _ _ _ => exact whole superset

/-! ## Survival in a larger stack -/

/-- Stays true when its stack is surrounded by further contexts. -/
def Rises (self : KeyBindingContextPredicate) : Prop :=
  ∀ before contexts allContexts after, contexts <+: allContexts →
    self.evalInner contexts allContexts = true →
    self.evalInner (before ++ contexts) (before ++ allContexts ++ after) = true

/-- Stays true, on every slice, when the surrounding contexts are removed. -/
def Falls (self : KeyBindingContextPredicate) : Prop :=
  ∀ before contexts allContexts after slice, slice ≠ [] →
    self.evalInner contexts (before ++ allContexts ++ after) = true →
    self.evalInner slice allContexts = true

/-- An atom is answered by the last context alone. -/
theorem rises_of_atom {self : KeyBindingContextPredicate} (answer : KeyContext → Bool)
    (eval_eq : ∀ contexts allContexts,
      self.evalInner contexts allContexts = (contexts.getLast?.map answer).getD false) :
    self.Rises := by
  intro before contexts allContexts after _ holds
  have nonempty := ne_nil_of_evalInner holds
  rw [eval_eq] at holds ⊢
  rwa [List.getLast?_append_of_ne_nil _ nonempty]

private theorem exists_drop_eq_append_drop (contexts : List KeyContext) {early late : Nat}
    (below : early ≤ late) :
    ∃ gained, contexts.drop early = gained ++ contexts.drop late := by
  refine ⟨(contexts.drop early).take (late - early), ?_⟩
  have split := (List.take_append_drop (late - early) (contexts.drop early)).symm
  rwa [List.drop_drop, Nat.add_sub_cancel' below] at split

/-- In the larger stack the parent matches at the latest where it did before,
which leaves the child a larger stack. -/
theorem Rises.descendant {parent child : KeyBindingContextPredicate} (parentRises : parent.Rises)
    (childRises : child.Rises) : (descendant parent child).Rises := by
  intro before contexts allContexts after front holds
  obtain ⟨index, inRange, parentHolds, -, childHolds⟩ :=
    (evalInner_descendant parent child contexts allContexts).mp holds
  have there := parentRises before _ _ after
    ((List.take_prefix (index + 1) contexts).trans front) parentHolds
  rw [← List.take_length_add_append] at there
  have exists_match : ∃ position, parent.evalInner ((before ++ contexts).take (position + 1))
      (before ++ allContexts ++ after) = true := ⟨before.length + index, there⟩
  classical
  have atMost : Nat.find exists_match ≤ before.length + index := Nat.find_min' exists_match there
  refine (evalInner_descendant parent child _ _).mpr
    ⟨Nat.find exists_match, ?_, Nat.find_spec exists_match, ?_, ?_⟩
  · rw [List.length_append]
    omega
  · intro earlier less
    exact Bool.eq_false_iff.mpr (Nat.find_min exists_match less)
  · -- the child's old stack is an end part of its new one
    obtain ⟨gained, split⟩ := exists_drop_eq_append_drop (before ++ contexts)
      (show Nat.find exists_match + 1 ≤ before.length + (index + 1) by omega)
    rw [List.drop_length_add_append] at split
    rw [split]
    have child := childRises gained _ _ [] List.prefix_rfl childHolds
    rwa [List.append_nil] at child

theorem Falls.not {predicate : KeyBindingContextPredicate} (falls : predicate.Falls) :
    (not predicate).Rises := by
  intro before contexts allContexts after front holds
  obtain ⟨nonempty, nowhere⟩ := (evalInner_not predicate contexts allContexts).mp holds
  refine (evalInner_not _ _ _).mpr ⟨by simp [nonempty], ?_⟩
  intro index _
  by_contra found
  have inhabited : allContexts ≠ [] := by
    rintro rfl
    exact nonempty (List.prefix_nil.mp front)
  have positive : 0 < allContexts.length := List.length_pos_iff.mpr inhabited
  have first : allContexts.take 1 ≠ [] := by
    simpa [List.take_eq_nil_iff] using inhabited
  have inside := falls before _ allContexts after (allContexts.take 1) first
    (Bool.not_eq_false _ ▸ found)
  rw [nowhere 0 positive] at inside
  exact Bool.false_ne_true inside

theorem Rises.not {predicate : KeyBindingContextPredicate} (rises : predicate.Rises) :
    (not predicate).Falls := by
  intro before contexts allContexts after slice nonempty holds
  obtain ⟨-, nowhere⟩ := (evalInner_not predicate contexts _).mp holds
  refine (evalInner_not _ _ _).mpr ⟨nonempty, ?_⟩
  intro index inRange
  by_contra found
  have outside := rises before _ allContexts after (List.take_prefix (index + 1) allContexts)
    (Bool.not_eq_false _ ▸ found)
  have same : (before ++ allContexts ++ after).take (before.length + index + 1) =
      before ++ allContexts.take (index + 1) := by
    rw [List.append_assoc, Nat.add_assoc, List.take_length_add_append,
      List.take_append_of_le_length inRange]
  rw [← same, nowhere _ (by simp; omega)] at outside
  exact Bool.false_ne_true outside

/-- The syntactic form of `Rises`, with `true`, and of `Falls`, with `false`: a
negation exchanges the two. -/
def survives : Bool → KeyBindingContextPredicate → Bool
  | true, identifier _ => true
  | true, equal _ _ => true
  | true, notEqual _ _ => true
  | true, descendant parent child => parent.survives true && child.survives true
  | outward, not predicate => predicate.survives (!outward)
  | outward, and left right => left.survives outward && right.survives outward
  | outward, or left right => left.survives outward && right.survives outward
  | false, _ => false

theorem survives_spec (self : KeyBindingContextPredicate) :
    (self.survives true = true → self.Rises) ∧ (self.survives false = true → self.Falls) := by
  induction self with
  | identifier name =>
      refine ⟨fun _ => rises_of_atom (fun context => context.contains name) ?_, by simp [survives]⟩
      intro contexts _
      rw [evalInner]
      cases contexts.getLast? <;> rfl
  | equal left right =>
      refine ⟨fun _ => rises_of_atom
        (fun context => ((context.get left).map fun value => decide (value = right)).getD false) ?_,
        by simp [survives]⟩
      intro contexts _
      rw [evalInner]
      cases contexts.getLast? <;> rfl
  | notEqual left right =>
      refine ⟨fun _ => rises_of_atom
        (fun context => ((context.get left).map fun value => decide (value ≠ right)).getD true) ?_,
        by simp [survives]⟩
      intro contexts _
      rw [evalInner]
      cases contexts.getLast? <;> rfl
  | descendant parent child parentIh childIh =>
      constructor
      · intro survived
        simp only [survives, Bool.and_eq_true] at survived
        exact (parentIh.1 survived.1).descendant (childIh.1 survived.2)
      · simp [survives]
  | not predicate ih => exact ⟨fun survived => (ih.2 survived).not, fun survived => (ih.1 survived).not⟩
  | and left right leftIh rightIh =>
      constructor
      · intro survived before contexts allContexts after front holds
        simp only [survives, Bool.and_eq_true] at survived
        rw [evalInner_and] at holds ⊢
        exact ⟨leftIh.1 survived.1 _ _ _ _ front holds.1, rightIh.1 survived.2 _ _ _ _ front holds.2⟩
      · intro survived before contexts allContexts after slice nonempty holds
        simp only [survives, Bool.and_eq_true] at survived
        rw [evalInner_and] at holds ⊢
        exact ⟨leftIh.2 survived.1 _ _ _ _ _ nonempty holds.1,
          rightIh.2 survived.2 _ _ _ _ _ nonempty holds.2⟩
  | or left right leftIh rightIh =>
      constructor
      · intro survived before contexts allContexts after front holds
        simp only [survives, Bool.and_eq_true] at survived
        rw [evalInner_or] at holds ⊢
        exact holds.imp (leftIh.1 survived.1 _ _ _ _ front) (rightIh.1 survived.2 _ _ _ _ front)
      · intro survived before contexts allContexts after slice nonempty holds
        simp only [survives, Bool.and_eq_true] at survived
        rw [evalInner_or] at holds ⊢
        exact holds.imp (leftIh.2 survived.1 _ _ _ _ _ nonempty)
          (rightIh.2 survived.2 _ _ _ _ _ nonempty)

/-! ## Soundness -/

theorem evalInner_of_mem_alternatives {self part : KeyBindingContextPredicate}
    (member : part ∈ self.alternatives) {contexts allContexts : List KeyContext}
    (holds : part.evalInner contexts allContexts = true) :
    self.evalInner contexts allContexts = true := by
  induction self with
  | or left right leftIh rightIh =>
      simp only [alternatives, List.mem_cons, List.mem_append] at member
      rcases member with rfl | inLeft | inRight
      · exact holds
      · exact (evalInner_or _ _ _ _).mpr (Or.inl (leftIh inLeft))
      · exact (evalInner_or _ _ _ _).mpr (Or.inr (rightIh inRight))
  | identifier _ => exact List.mem_singleton.mp member ▸ holds
  | equal _ _ => exact List.mem_singleton.mp member ▸ holds
  | notEqual _ _ => exact List.mem_singleton.mp member ▸ holds
  | descendant _ _ _ _ => exact List.mem_singleton.mp member ▸ holds
  | not _ _ => exact List.mem_singleton.mp member ▸ holds
  | and _ _ _ _ => exact List.mem_singleton.mp member ▸ holds

theorem evalInner_of_mem_conjuncts {self part : KeyBindingContextPredicate}
    (member : part ∈ self.conjuncts) {contexts allContexts : List KeyContext}
    (holds : self.evalInner contexts allContexts = true) :
    part.evalInner contexts allContexts = true := by
  induction self with
  | and left right leftIh rightIh =>
      simp only [conjuncts, List.mem_cons, List.mem_append] at member
      have both := (evalInner_and _ _ _ _).mp holds
      rcases member with rfl | inLeft | inRight
      · exact holds
      · exact leftIh inLeft both.1
      · exact rightIh inRight both.2
  | identifier _ => exact List.mem_singleton.mp member ▸ holds
  | equal _ _ => exact List.mem_singleton.mp member ▸ holds
  | notEqual _ _ => exact List.mem_singleton.mp member ▸ holds
  | descendant _ _ _ _ => exact List.mem_singleton.mp member ▸ holds
  | not _ _ => exact List.mem_singleton.mp member ▸ holds
  | or _ _ _ _ => exact List.mem_singleton.mp member ▸ holds

/-- A part that rises holds wherever the whole predicate does. -/
theorem Rises.of_mem_parts {self part : KeyBindingContextPredicate} (rises : part.Rises)
    (member : part ∈ self.parts) {contexts allContexts : List KeyContext}
    (front : contexts <+: allContexts) (holds : self.evalInner contexts allContexts = true) :
    part.evalInner contexts allContexts = true := by
  induction self generalizing contexts allContexts with
  | and left right leftIh rightIh =>
      simp only [parts, List.mem_cons, List.mem_append] at member
      have both := (evalInner_and _ _ _ _).mp holds
      rcases member with rfl | inLeft | inRight
      · exact holds
      · exact leftIh inLeft front both.1
      · exact rightIh inRight front both.2
  | descendant parent child _ childIh =>
      simp only [parts, List.mem_cons] at member
      rcases member with rfl | inChild
      · exact holds
      · obtain ⟨index, -, -, -, childHolds⟩ := (evalInner_descendant _ _ _ _).mp holds
        obtain ⟨after, rfl⟩ := front
        have inner := childIh inChild List.prefix_rfl childHolds
        have outer := rises (contexts.take (index + 1)) _ _ after List.prefix_rfl inner
        rwa [List.take_append_drop] at outer
  | identifier _ => exact List.mem_singleton.mp member ▸ holds
  | equal _ _ => exact List.mem_singleton.mp member ▸ holds
  | notEqual _ _ => exact List.mem_singleton.mp member ▸ holds
  | not _ _ => exact List.mem_singleton.mp member ▸ holds
  | or _ _ _ _ => exact List.mem_singleton.mp member ▸ holds

/-- If an alternative of `self` occurs in `other` below a `>`, then one occurs
above every `>`, or one that survives in a larger stack. -/
def Sheltered (self other : KeyBindingContextPredicate) : Prop :=
  (∃ part ∈ self.alternatives, part ∈ other.belowChild) →
    ∃ part ∈ self.alternatives,
      part ∈ other.conjuncts ∨ part ∈ other.belowChild ∧ part.survives true = true

theorem belowChild_subset_parts (self : KeyBindingContextPredicate) :
    self.belowChild ⊆ self.parts := by
  induction self with
  | and left right leftIh rightIh =>
      refine List.append_subset.mpr ⟨fun part member => ?_, fun part member => ?_⟩
      · exact List.mem_cons_of_mem _ (List.mem_append_left _ (leftIh member))
      · exact List.mem_cons_of_mem _ (List.mem_append_right _ (rightIh member))
  | descendant parent child _ _ => exact fun part member => List.mem_cons_of_mem _ member
  | identifier _ => exact List.nil_subset _
  | equal _ _ => exact List.nil_subset _
  | notEqual _ _ => exact List.nil_subset _
  | not _ _ => exact List.nil_subset _
  | or _ _ _ _ => exact List.nil_subset _

/-- `is_superset` is sound for sheltered predicates: on every slice of every
stack, and for the depth of the match. -/
theorem isSuperset_sound (self other : KeyBindingContextPredicate)
    (superset : self.isSuperset other = true) (sheltered : Sheltered self other) :
    (∀ contexts depth, other.evalInner (List.take depth contexts) contexts = true →
      self.evalInner (List.take depth contexts) contexts = true) ∧
    ∀ contexts depth, other.depthOf contexts = some depth →
      ∃ deeper, self.depthOf contexts = some deeper ∧ depth ≤ deeper := by
  have sound : ∀ contexts depth, other.evalInner (List.take depth contexts) contexts = true →
      self.evalInner (List.take depth contexts) contexts = true := by
    intro contexts depth holds
    obtain ⟨part, isAlternative, isPart⟩ := exists_part_of_isSuperset superset
    obtain ⟨good, goodAlternative, goodPart⟩ : ∃ good ∈ self.alternatives,
        good ∈ other.conjuncts ∨ good ∈ other.belowChild ∧ good.survives true = true := by
      rcases mem_parts isPart with outside | below
      · exact ⟨part, isAlternative, Or.inl outside⟩
      · exact sheltered ⟨part, isAlternative, below⟩
    refine evalInner_of_mem_alternatives goodAlternative ?_
    rcases goodPart with outside | ⟨below, survived⟩
    · exact evalInner_of_mem_conjuncts outside holds
    · exact ((survives_spec good).1 survived).of_mem_parts (belowChild_subset_parts other below)
        (List.take_prefix depth contexts) holds
  refine ⟨sound, fun contexts depth found => ?_⟩
  obtain ⟨inRange, holds⟩ := depthOf_eq_some found
  exact le_depthBelow inRange (sound contexts depth holds)

/-- Below the pane, `editor` is found under an even number of negations. -/
theorem isSuperset_sound_editor :
    (identifier "editor").evalInner [.named "pane", .named "editor"]
      [.named "pane", .named "editor"] = true :=
  (isSuperset_sound (identifier "editor") (descendant (identifier "pane") (identifier "editor"))
    (by decide) (fun _ => ⟨identifier "editor", by decide, Or.inr (by decide)⟩)).1
    [.named "pane", .named "editor"] 2 (by decide)

/-- `Pane > !Workspace` matches in a workspace, `!Workspace` does not. -/
theorem isSuperset_not_sound :
    ¬ ∀ self other : KeyBindingContextPredicate, self.isSuperset other = true →
      ∀ contexts depth, other.evalInner (List.take depth contexts) contexts = true →
        self.evalInner (List.take depth contexts) contexts = true := by
  intro sound
  have matched := sound (not (identifier "Workspace"))
    (descendant (identifier "Pane") (not (identifier "Workspace"))) (by decide)
    [.named "Workspace", .named "Pane", .named "Editor"] 3 (by decide)
  exact absurd matched (by decide)

end KeyBindingContextPredicate

end Gpui
