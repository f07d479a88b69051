import Gpui.Keymap.Core

/-!
# Which binding wins

Matches of an input are ordered by depth, then by position.  The search for
bindings ends at the first `NoAction` binding it stops at, so a binding is
returned when nothing of higher precedence stops the search.
-/

namespace Gpui

open Gpui.Library

variable {A : Type} [Action A]

namespace KeyBinding

omit [Action A] in
/-- A match covers the whole input, keystroke by keystroke. -/
theorem matchKeystrokes_eq_some {self : KeyBinding A} {typed : List Keystroke} {pending : Bool} :
    self.matchKeystrokes typed = some pending ↔
      typed.length ≤ self.keystrokes.length ∧
      (∀ pair ∈ self.keystrokes.zip typed, pair.2.shouldMatch pair.1 = true) ∧
      pending = decide (typed.length < self.keystrokes.length) := by
  unfold matchKeystrokes
  split
  · rename_i short
    simp
    omega
  · rename_i long
    split
    · rename_i agreeing
      rw [List.all_eq_true] at agreeing
      simp only [Option.some.injEq, gt_iff_lt]
      exact ⟨fun same => ⟨not_lt.mp long, agreeing, same.symm⟩, fun spec => spec.2.2.symm⟩
    · rename_i mismatch
      rw [List.all_eq_true] at mismatch
      simp only [reduceCtorEq, false_iff]
      exact fun spec => mismatch spec.2.1

end KeyBinding

namespace Keymap

/-- The binding of `entry` is enabled at its depth and begins with the input; with
`pending` it goes on after it. -/
structure Matches (keymap : Keymap A) (input : List Keystroke) (contextStack : List KeyContext)
    (pending : Bool) (entry : Matched A) : Prop where
  here : keymap.bindings[entry.index]? = some entry.binding
  enabled : bindingEnabled entry.binding contextStack = some entry.depth
  agrees : entry.binding.matchKeystrokes input = some pending

/-! ## The lists of candidates -/

theorem mem_matchedBindings {self : Keymap A} {input : List Keystroke}
    {contextStack : List KeyContext} {entry : Matched A} :
    entry ∈ self.matchedBindings input contextStack ↔
      self.Matches input contextStack false entry := by
  simp only [matchedBindings, List.mem_filterMap, List.mem_reverse, Prod.exists,
    List.mem_zipIdx_iff_getElem?, Option.bind_eq_bind, Option.bind_eq_some_iff]
  constructor
  · rintro ⟨binding, index, here, depth, enabled, pending, agrees, kept⟩
    cases pending with
    | true => simp at kept
    | false =>
        simp only [Bool.false_eq_true, if_false, Option.some.injEq] at kept
        subst kept
        exact ⟨here, enabled, agrees⟩
  · rintro ⟨here, enabled, agrees⟩
    exact ⟨entry.binding, entry.index, here, entry.depth, enabled, false, agrees, rfl⟩

theorem mem_pendingBindings {self : Keymap A} {input : List Keystroke}
    {contextStack : List KeyContext} {index : Nat} {binding : KeyBinding A} :
    (index, binding) ∈ self.pendingBindings input contextStack ↔
      ∃ depth, self.Matches input contextStack true ⟨depth, index, binding⟩ := by
  simp only [pendingBindings, List.mem_filterMap, List.mem_reverse, Prod.exists,
    List.mem_zipIdx_iff_getElem?, Option.bind_eq_bind, Option.bind_eq_some_iff]
  constructor
  · rintro ⟨listed, position, here, depth, enabled, pending, agrees, kept⟩
    cases pending with
    | false => simp at kept
    | true =>
        simp only [if_true, Option.some.injEq, Prod.mk.injEq] at kept
        obtain ⟨rfl, rfl⟩ := kept
        exact ⟨depth, here, enabled, agrees⟩
  · rintro ⟨depth, here, enabled, agrees⟩
    exact ⟨binding, index, here, depth, enabled, true, agrees, rfl⟩

omit [Action A] in
/-- Positions fall along the reversed enumeration. -/
theorem pairwise_zipIdx_reverse (bindings : List (KeyBinding A)) :
    bindings.zipIdx.reverse.Pairwise fun first second => second.2 < first.2 := by
  rw [List.pairwise_reverse]
  have positions : (List.range' 0 bindings.length).Pairwise (· < ·) :=
    List.pairwise_lt_range'
  rw [← List.zipIdx_map_snd] at positions
  exact List.pairwise_map.mp positions

theorem matchedBindings_distinct (self : Keymap A) (input : List Keystroke)
    (contextStack : List KeyContext) :
    (self.matchedBindings input contextStack).Pairwise fun first second =>
      precedence first ≠ precedence second := by
  refine List.Pairwise.filterMap _ ?_ (pairwise_zipIdx_reverse self.bindings)
  intro first second positions entry fromFirst other fromSecond same
  have index_eq : ∀ {listed : KeyBinding A × Nat} {entry : Matched A},
      (do
        let depth ← bindingEnabled listed.1 contextStack
        let pending ← listed.1.matchKeystrokes input
        if pending then none else some (⟨depth, listed.2, listed.1⟩ : Matched A)) =
          some entry → entry.index = listed.2 := by
    intro listed entry kept
    simp only [Option.bind_eq_bind, Option.bind_eq_some_iff] at kept
    obtain ⟨depth, -, pending, -, kept⟩ := kept
    cases pending with
    | true => simp at kept
    | false =>
        simp only [Bool.false_eq_true, if_false, Option.some.injEq] at kept
        exact kept ▸ rfl
  have indices : entry.index = other.index := by
    have := congrArg (fun key => OrderDual.ofDual (ofLex key).2) same
    exact this
  rw [index_eq fromFirst, index_eq fromSecond] at indices
  omega

theorem pendingBindings_ascending (self : Keymap A) (input : List Keystroke)
    (contextStack : List KeyContext) :
    (self.pendingBindings input contextStack).reverse.Pairwise fun first second =>
      first.1 < second.1 := by
  rw [List.pairwise_reverse]
  refine List.Pairwise.filterMap _ ?_ (pairwise_zipIdx_reverse self.bindings)
  intro first second positions entry fromFirst other fromSecond
  simp only [Option.bind_eq_bind, Option.bind_eq_some_iff] at fromFirst fromSecond
  obtain ⟨-, -, pending, -, kept⟩ := fromFirst
  obtain ⟨-, -, otherPending, -, otherKept⟩ := fromSecond
  cases pending <;> cases otherPending <;> simp at kept otherKept
  subst kept otherKept
  exact positions

/-! ## The bindings returned -/

/-- The matches in order of precedence. -/
def sortedMatches (self : Keymap A) (input : List Keystroke) (contextStack : List KeyContext) :
    List (Matched A) :=
  sortByKey precedence (self.matchedBindings input contextStack)

theorem sortedMatches_sorted (self : Keymap A) (input : List Keystroke)
    (contextStack : List KeyContext) :
    (self.sortedMatches input contextStack).Pairwise fun first second =>
      precedence first < precedence second :=
  sortByKey_pairwise_lt (self.matchedBindings_distinct input contextStack)

theorem mem_sortedMatches {self : Keymap A} {input : List Keystroke}
    {contextStack : List KeyContext} {entry : Matched A} :
    entry ∈ self.sortedMatches input contextStack ↔
      self.Matches input contextStack false entry := by
  rw [sortedMatches, mem_sortByKey, mem_matchedBindings]

theorem collectBindings_eq (entries : List (Matched A)) :
    (collectBindings entries).1 =
      ((entries.takeWhile fun entry => !entry.binding.stops).filter fun entry =>
        !isNoAction entry.binding.action).map Matched.binding := by
  induction entries with
  | nil => rfl
  | cons entry rest ih =>
      cases nullBinding : isNoAction entry.binding.action with
      | false =>
          have goesOn : entry.binding.stops = false := by simp [KeyBinding.stops, nullBinding]
          simp [collectBindings, nullBinding, goesOn, ih]
      | true =>
          cases source : entry.binding.metaIndex with
          | none =>
              have stops : entry.binding.stops = true := by
                simp [KeyBinding.stops, nullBinding, source]
              simp [collectBindings, nullBinding, source, stops]
          | some source' =>
              by_cases user : source' = 0
              · have stops : entry.binding.stops = true := by
                  simp [KeyBinding.stops, nullBinding, source, user]
                simp [collectBindings, nullBinding, source, stops, user]
              · have goesOn : entry.binding.stops = false := by
                  simp [KeyBinding.stops, nullBinding, source, user]
                simp [collectBindings, nullBinding, source, goesOn, user, ih]

theorem bindingsForInput_fst (self : Keymap A) (input : List Keystroke)
    (contextStack : List KeyContext) :
    (self.bindingsForInput input contextStack).1 =
      (((self.sortedMatches input contextStack).takeWhile fun entry =>
        !entry.binding.stops).filter fun entry =>
          !isNoAction entry.binding.action).map Matched.binding :=
  collectBindings_eq _

/-- The entry is a binding of an action that nothing before it stops. -/
structure Returned (keymap : Keymap A) (input : List Keystroke) (contextStack : List KeyContext)
    (entry : Matched A) : Prop where
  isMatch : keymap.Matches input contextStack false entry
  isAction : isNoAction entry.binding.action = false
  unstopped : ∀ other, keymap.Matches input contextStack false other →
    precedence other < precedence entry → other.binding.stops = false

/-- The entry is returned, and nothing is returned before it. -/
structure Wins (keymap : Keymap A) (input : List Keystroke) (contextStack : List KeyContext)
    (entry : Matched A) : Prop where
  isMatch : keymap.Matches input contextStack false entry
  isAction : isNoAction entry.binding.action = false
  first : ∀ other, keymap.Matches input contextStack false other →
    precedence other < precedence entry →
    isNoAction other.binding.action = true ∧ other.binding.stops = false

theorem stops_eq_false_of_action {binding : KeyBinding A}
    (isAction : isNoAction binding.action = false) : binding.stops = false := by
  simp [KeyBinding.stops, isAction]

theorem mem_bindingsForInput {self : Keymap A} {input : List Keystroke}
    {contextStack : List KeyContext} {binding : KeyBinding A} :
    binding ∈ (self.bindingsForInput input contextStack).1 ↔
      ∃ entry, entry.binding = binding ∧ self.Returned input contextStack entry := by
  rw [bindingsForInput_fst, List.mem_map]
  simp only [List.mem_filter,
    mem_takeWhile_of_sorted (self.sortedMatches_sorted input contextStack), mem_sortedMatches,
    Bool.not_eq_true']
  constructor
  · rintro ⟨entry, ⟨⟨isMatch, -, unstopped⟩, isAction⟩, rfl⟩
    exact ⟨entry, rfl, isMatch, isAction, unstopped⟩
  · rintro ⟨entry, rfl, isMatch, isAction, unstopped⟩
    exact ⟨entry, ⟨⟨isMatch, stops_eq_false_of_action isAction, unstopped⟩, isAction⟩, rfl⟩

theorem head?_bindingsForInput {self : Keymap A} {input : List Keystroke}
    {contextStack : List KeyContext} {binding : KeyBinding A} :
    (self.bindingsForInput input contextStack).1.head? = some binding ↔
      ∃ entry, entry.binding = binding ∧ self.Wins input contextStack entry := by
  have sorted := self.sortedMatches_sorted input contextStack
  rw [bindingsForInput_fst, List.head?_map, Option.map_eq_some_iff]
  simp only [head?_filter_of_sorted (sorted.sublist (List.takeWhile_sublist _)),
    mem_takeWhile_of_sorted sorted, mem_sortedMatches, Bool.not_eq_true', Bool.not_eq_false']
  constructor
  · rintro ⟨entry, ⟨⟨isMatch, -, unstopped⟩, isAction, first⟩, rfl⟩
    refine ⟨entry, rfl, isMatch, isAction, fun other otherMatch before => ?_⟩
    have goesOn := unstopped other otherMatch before
    refine ⟨first other ⟨otherMatch, goesOn, fun third thirdMatch earlier => ?_⟩ before, goesOn⟩
    exact unstopped third thirdMatch (earlier.trans before)
  · rintro ⟨entry, rfl, isMatch, isAction, first⟩
    refine ⟨entry, ⟨⟨isMatch, stops_eq_false_of_action isAction, ?_⟩, isAction, ?_⟩, rfl⟩
    · exact fun other otherMatch before => (first other otherMatch before).2
    · exact fun other otherMatch before => (first other otherMatch.1 before).1

/-! ## The pending flag -/

/-- What the loop over the pending bindings leaves, when nothing was returned. -/
theorem mem_foldl_collectPending {keystrokes : List KeybindingKeystroke}
    {entries : List (Nat × KeyBinding A)}
    (ascending : entries.Pairwise fun first second => first.1 < second.1) :
    keystrokes ∈ entries.foldl (collectPending none) ∅ ↔
      ∃ entry ∈ entries, isNoAction entry.2.action = false ∧ entry.2.keystrokes = keystrokes ∧
        ∀ later ∈ entries, entry.1 < later.1 → isNoAction later.2.action = true →
          later.2.keystrokes ≠ keystrokes := by
  induction entries using List.reverseRecOn with
  | nil => simp
  | append_singleton entries last ih =>
      obtain ⟨before, -, below⟩ := List.pairwise_append.mp ascending
      have below : ∀ entry ∈ entries, entry.1 < last.1 := fun entry member =>
        below entry member last (List.mem_singleton_self last)
      rw [List.foldl_append, List.foldl_cons, List.foldl_nil, collectPending]
      simp only [Option.any_none, Bool.false_eq_true, if_false]
      cases nullBinding : isNoAction last.2.action with
      | true =>
          simp only [if_true, Finset.mem_erase, ih before]
          constructor
          · rintro ⟨differ, entry, member, isAction, same, unremoved⟩
            refine ⟨entry, List.mem_append_left _ member, isAction, same, ?_⟩
            intro later laterMem after isNull
            rcases List.mem_append.mp laterMem with inFront | isLast
            · exact unremoved later inFront after isNull
            · obtain rfl := List.mem_singleton.mp isLast
              exact Ne.symm differ
          · rintro ⟨entry, member, isAction, same, unremoved⟩
            rcases List.mem_append.mp member with inFront | isLast
            · refine ⟨?_, entry, inFront, isAction, same, ?_⟩
              · exact Ne.symm (unremoved last (by simp) (below entry inFront) nullBinding)
              · exact fun later laterMem => unremoved later (List.mem_append_left _ laterMem)
            · obtain rfl := List.mem_singleton.mp isLast
              exact absurd (isAction.symm.trans nullBinding) Bool.false_ne_true
      | false =>
          simp only [Bool.false_eq_true, if_false, Finset.mem_insert, ih before]
          constructor
          · rintro (rfl | ⟨entry, member, isAction, same, unremoved⟩)
            · refine ⟨last, by simp, nullBinding, rfl, ?_⟩
              intro later laterMem after
              rcases List.mem_append.mp laterMem with inFront | isLast
              · exact absurd after (not_lt.mpr (le_of_lt (below later inFront)))
              · obtain rfl := List.mem_singleton.mp isLast
                exact absurd after (lt_irrefl _)
            · refine ⟨entry, List.mem_append_left _ member, isAction, same, ?_⟩
              intro later laterMem after isNull
              rcases List.mem_append.mp laterMem with inFront | isLast
              · exact unremoved later inFront after isNull
              · obtain rfl := List.mem_singleton.mp isLast
                exact absurd (nullBinding.symm.trans isNull) Bool.false_ne_true
          · rintro ⟨entry, member, isAction, same, unremoved⟩
            rcases List.mem_append.mp member with inFront | isLast
            · exact Or.inr ⟨entry, inFront, isAction, same,
                fun later laterMem => unremoved later (List.mem_append_left _ laterMem)⟩
            · obtain rfl := List.mem_singleton.mp isLast
              exact Or.inl same.symm

end Keymap

end Gpui
