import Gpui.Keymap.Precedence

/-!
# The pending flag

For the returned bindings a `NoAction` binding counts by precedence: deeper, or
as deep and later, and only when the search stops at it.  For the pending flag
it counts by position alone, against bindings with equal keystrokes.
-/

namespace Gpui

variable {A : Type} [Action A]

namespace KeybindingKeystroke

/-- What matching looks at in a keystroke of a binding. -/
def wanted (self : KeybindingKeystroke) : Modifiers × String :=
  (self.inner.modifiers, self.inner.key)

/-- The keystroke typed plainly, without a character. -/
def plain (self : KeybindingKeystroke) : Keystroke :=
  { self.inner with keyChar := none }

theorem shouldMatch_congr {first second : KeybindingKeystroke}
    (same : first.wanted = second.wanted) (typed : Keystroke) :
    typed.shouldMatch first = typed.shouldMatch second := by
  simp only [wanted, Prod.mk.injEq] at same
  simp only [Keystroke.shouldMatch, same.1, same.2]

theorem plain_shouldMatch_iff {self other : KeybindingKeystroke} :
    self.plain.shouldMatch other = true ↔ other.wanted = self.wanted := by
  unfold Keystroke.shouldMatch plain wanted
  simp

end KeybindingKeystroke

namespace KeyBinding

omit [Action A] in
/-- Matching more input splits at the input. -/
theorem matchKeystrokes_append {self : KeyBinding A} {input extension : List Keystroke}
    (more : extension ≠ []) :
    self.matchKeystrokes (input ++ extension) = some false ↔
      self.matchKeystrokes input = some true ∧
      self.keystrokes.length = input.length + extension.length ∧
      ∀ pair ∈ (self.keystrokes.drop input.length).zip extension,
        pair.2.shouldMatch pair.1 = true := by
  have positive := List.length_pos_iff.mpr more
  have split : ∀ {keystrokes : List KeybindingKeystroke}, input.length ≤ keystrokes.length →
      keystrokes.zip (input ++ extension) =
        keystrokes.zip input ++ (keystrokes.drop input.length).zip extension := by
    intro keystrokes long
    have front : (keystrokes.take input.length).length = input.length := by simpa using long
    calc keystrokes.zip (input ++ extension)
        = (keystrokes.take input.length ++ keystrokes.drop input.length).zip
            (input ++ extension) := by rw [List.take_append_drop]
      _ = (keystrokes.take input.length).zip input ++
            (keystrokes.drop input.length).zip extension := List.zip_append front
      _ = keystrokes.zip input ++ (keystrokes.drop input.length).zip extension := by
          congr 1
          conv_rhs => rw [List.zip_eq_zip_take_min, min_eq_right long, List.take_length]
  rw [matchKeystrokes_eq_some, matchKeystrokes_eq_some, List.length_append]
  constructor
  · rintro ⟨long, agrees, full⟩
    have full : ¬ input.length + extension.length < self.keystrokes.length := by
      simpa using full
    rw [split (by omega)] at agrees
    refine ⟨⟨by omega, ?_, ?_⟩, by omega, ?_⟩
    · exact fun pair member => agrees pair (List.mem_append_left _ member)
    · simp
      omega
    · exact fun pair member => agrees pair (List.mem_append_right _ member)
  · rintro ⟨⟨long, front, -⟩, length_eq, back⟩
    refine ⟨by omega, ?_, by simp [length_eq]⟩
    rw [split long]
    intro pair member
    rcases List.mem_append.mp member with inFront | inBack
    · exact front pair inFront
    · exact back pair inBack

/-- Two bindings go on alike after an input of the given length. -/
def SameRest (first second : KeyBinding A) (length : Nat) : Prop :=
  (first.keystrokes.drop length).map KeybindingKeystroke.wanted =
    (second.keystrokes.drop length).map KeybindingKeystroke.wanted

end KeyBinding

namespace Keymap

/-- Some binding of an action goes on after the input, and no `NoAction` binding
added later has the same keystrokes. -/
def PendingByPosition (self : Keymap A) (input : List Keystroke)
    (contextStack : List KeyContext) : Prop :=
  ∃ entry, self.Matches input contextStack true entry ∧
    isNoAction entry.binding.action = false ∧
    ¬ ∃ other, self.Matches input contextStack true other ∧ entry.index < other.index ∧
      isNoAction other.binding.action = true ∧ other.binding.keystrokes = entry.binding.keystrokes

/-- Some binding of an action goes on after the input, and no binding that goes
on alike and takes precedence stops the search. -/
def PendingByPrecedence (self : Keymap A) (input : List Keystroke)
    (contextStack : List KeyContext) : Prop :=
  ∃ entry, self.Matches input contextStack true entry ∧
    isNoAction entry.binding.action = false ∧
    ¬ ∃ other, self.Matches input contextStack true other ∧ precedence other < precedence entry ∧
      other.binding.stops = true ∧ other.binding.SameRest entry.binding input.length

/-- The flag goes by position. -/
theorem bindingsForInput_snd {self : Keymap A} {input : List Keystroke}
    {contextStack : List KeyContext}
    (noBindings : (self.bindingsForInput input contextStack).1 = []) :
    (self.bindingsForInput input contextStack).2 = true ↔
      self.PendingByPosition input contextStack := by
  have noFirst : (collectBindings (self.sortedMatches input contextStack)).2 = none := by
    have empty : (collectBindings (self.sortedMatches input contextStack)).1 = [] := noBindings
    generalize self.sortedMatches input contextStack = entries at empty ⊢
    induction entries with
    | nil => rfl
    | cons entry rest ih =>
        unfold collectBindings at empty ⊢
        split at empty
        · rename_i isNull
          simp only [isNull, if_true]
          split at empty
          · split at empty
            · simp_all
            · simp_all
          · simp_all
        · simp at empty
  have flag_eq : (self.bindingsForInput input contextStack).2 = true ↔
      ∃ keystrokes, keystrokes ∈ (self.pendingBindings input contextStack).reverse.foldl
        (collectPending none) ∅ := by
    rw [← noFirst]
    simp only [bindingsForInput, sortedMatches, decide_eq_true_eq, ne_eq,
      ← Finset.nonempty_iff_ne_empty]
    rfl
  rw [flag_eq]
  simp only [mem_foldl_collectPending (self.pendingBindings_ascending input contextStack),
    List.mem_reverse]
  constructor
  · rintro ⟨keystrokes, ⟨index, binding⟩, member, isAction, rfl, unremoved⟩
    obtain ⟨depth, isMatch⟩ := mem_pendingBindings.1 member
    refine ⟨⟨depth, index, binding⟩, isMatch, isAction, ?_⟩
    rintro ⟨other, otherMatch, after, isNull, same⟩
    exact unremoved (other.index, other.binding) (mem_pendingBindings.2 ⟨_, otherMatch⟩) after
      isNull same
  · rintro ⟨entry, isMatch, isAction, unremoved⟩
    refine ⟨_, (entry.index, entry.binding), mem_pendingBindings.2 ⟨_, isMatch⟩, isAction, rfl,
      ?_⟩
    rintro ⟨index, binding⟩ member after isNull same
    obtain ⟨depth, otherMatch⟩ := mem_pendingBindings.1 member
    exact unremoved ⟨⟨depth, index, binding⟩, otherMatch, after, isNull, same⟩

theorem Matches.append_iff {self : Keymap A} {input extension : List Keystroke}
    {contextStack : List KeyContext} {entry : Matched A} (more : extension ≠ []) :
    self.Matches (input ++ extension) contextStack false entry ↔
      self.Matches input contextStack true entry ∧
      entry.binding.keystrokes.length = input.length + extension.length ∧
      ∀ pair ∈ (entry.binding.keystrokes.drop input.length).zip extension,
        pair.2.shouldMatch pair.1 = true := by
  constructor
  · rintro ⟨here, enabled, agrees⟩
    obtain ⟨front, length_eq, back⟩ := (KeyBinding.matchKeystrokes_append more).mp agrees
    exact ⟨⟨here, enabled, front⟩, length_eq, back⟩
  · rintro ⟨⟨here, enabled, front⟩, length_eq, back⟩
    exact ⟨here, enabled, (KeyBinding.matchKeystrokes_append more).mpr ⟨front, length_eq, back⟩⟩

/-- Keystrokes that match one end of a binding match every end like it. -/
theorem zip_shouldMatch_congr {first second : List KeybindingKeystroke}
    (same : first.map KeybindingKeystroke.wanted = second.map KeybindingKeystroke.wanted)
    {typed : List Keystroke}
    (agrees : ∀ pair ∈ first.zip typed, pair.2.shouldMatch pair.1 = true) :
    ∀ pair ∈ second.zip typed, pair.2.shouldMatch pair.1 = true := by
  induction first generalizing second typed with
  | nil =>
      obtain rfl := List.map_eq_nil_iff.mp same.symm
      simp
  | cons target rest ih =>
      cases second with
      | nil => simp at same
      | cons other others =>
          simp only [List.map_cons, List.cons.injEq] at same
          cases typed with
          | nil => simp
          | cons keystroke typed =>
              simp only [List.zip_cons_cons, List.mem_cons, forall_eq_or_imp] at agrees ⊢
              refine ⟨?_, ih same.2 agrees.2⟩
              rw [← KeybindingKeystroke.shouldMatch_congr same.1]
              exact agrees.1

/-- Typing an end plainly matches exactly the ends like it. -/
theorem zip_plain_iff {first second : List KeybindingKeystroke}
    (length_eq : second.length = first.length) :
    (∀ pair ∈ second.zip (first.map KeybindingKeystroke.plain),
        pair.2.shouldMatch pair.1 = true) ↔
      second.map KeybindingKeystroke.wanted = first.map KeybindingKeystroke.wanted := by
  induction first generalizing second with
  | nil =>
      obtain rfl := List.length_eq_zero_iff.mp length_eq
      simp
  | cons target rest ih =>
      cases second with
      | nil => simp at length_eq
      | cons other others =>
          simp only [List.map_cons, List.zip_cons_cons, List.mem_cons, forall_eq_or_imp,
            KeybindingKeystroke.plain_shouldMatch_iff, List.cons.injEq]
          rw [ih (by simpa using length_eq)]

/-- An extension with a binding exists by precedence. -/
theorem exists_extension_iff {self : Keymap A} {input : List Keystroke}
    {contextStack : List KeyContext} :
    (∃ extension, extension ≠ [] ∧
        (self.bindingsForInput (input ++ extension) contextStack).1 ≠ []) ↔
      self.PendingByPrecedence input contextStack := by
  constructor
  · rintro ⟨extension, more, found⟩
    obtain ⟨binding, member⟩ := List.exists_mem_of_ne_nil _ found
    obtain ⟨entry, -, isMatch, isAction, unstopped⟩ := mem_bindingsForInput.1 member
    obtain ⟨begins, length_eq, agrees⟩ := (Matches.append_iff more).mp isMatch
    refine ⟨entry, begins, isAction, ?_⟩
    rintro ⟨other, otherBegins, before, stops, same⟩
    have sameLength := congrArg List.length same
    simp only [List.length_map, List.length_drop] at sameLength
    have shorter : input.length < other.binding.keystrokes.length := by
      have := (KeyBinding.matchKeystrokes_eq_some.1 otherBegins.agrees).2.2
      simpa using this
    have positive := List.length_pos_iff.mpr more
    have otherMatch : self.Matches (input ++ extension) contextStack false other :=
      (Matches.append_iff more).mpr
        ⟨otherBegins, by omega, zip_shouldMatch_congr same.symm agrees⟩
    exact Bool.false_ne_true ((unstopped other otherMatch before).symm.trans stops)
  · rintro ⟨entry, begins, isAction, unstopped⟩
    have shorter : input.length < entry.binding.keystrokes.length := by
      have := (KeyBinding.matchKeystrokes_eq_some.1 begins.agrees).2.2
      simpa using this
    -- the rest of the binding, typed plainly, is matched by the fewest others
    set rest := entry.binding.keystrokes.drop input.length with rest_def
    have rest_length : rest.length = entry.binding.keystrokes.length - input.length :=
      List.length_drop
    have length_eq : (rest.map KeybindingKeystroke.plain).length = rest.length := List.length_map _
    have more : rest.map KeybindingKeystroke.plain ≠ [] :=
      List.ne_nil_of_length_pos (by omega)
    refine ⟨_, more, ?_⟩
    refine List.ne_nil_of_mem (mem_bindingsForInput.2 ⟨entry, rfl, ?_, isAction, ?_⟩)
    · refine (Matches.append_iff more).mpr ⟨begins, by omega, ?_⟩
      exact (zip_plain_iff rfl).mpr rfl
    · intro other otherMatch before
      obtain ⟨otherBegins, otherLength, agrees⟩ := (Matches.append_iff more).mp otherMatch
      by_contra stops
      refine unstopped ⟨other, otherBegins, before, Bool.not_eq_false _ ▸ stops, ?_⟩
      refine (zip_plain_iff ?_).mp agrees
      have otherRest : (other.binding.keystrokes.drop input.length).length =
          other.binding.keystrokes.length - input.length := List.length_drop
      rw [otherRest, otherLength, length_eq]
      exact Nat.add_sub_cancel_left _ _

/-- A chord of the editor, disabled later on for the workspace around it. -/
def shallowNull : Keymap SampleAction :=
  new [sampleBinding ["space", "w"] .alpha "editor",
    sampleBinding ["space", "w"] .noAction "workspace"]

example : (shallowNull.bindingsForInput [sampleKeystroke "space"] [.named "workspace"]).1 = [] := by
  decide +kernel

end Keymap

end Gpui
