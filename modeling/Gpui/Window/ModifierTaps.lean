import Gpui.Keymap.Core

/-!
# Taps of a modifier

A modifier that is pressed and released by itself is dispatched as a keystroke.  The window
remembers the modifiers of the last event and one flag for key presses, which is taken back
when exactly one modifier is pressed from none.

That another modifier was held as well is not remembered: a chord that is released down to
one modifier taps this one.
-/

namespace Gpui

namespace Modifiers

def numberOfModifiers (self : Modifiers) : Nat :=
  self.control.toNat + self.alt.toNat + self.shift.toNat + self.platform.toNat +
    self.function.toNat

/-- The key of the first modifier that is held. -/
def tapKey (self : Modifiers) : Option String :=
  if self.shift then some "shift"
  else if self.control then some "control"
  else if self.alt then some "alt"
  else if self.platform then some "platform"
  else if self.function then some "function"
  else none

end Modifiers

/-- The events that `dispatch_key_event` looks at. -/
inductive KeyEvent where
  | modifiersChanged (modifiers : Modifiers)
  | keyDown (keystroke : Keystroke)
deriving DecidableEq, Repr

structure ModifierState where
  modifiers : Modifiers
  sawKeystroke : Bool
deriving DecidableEq, Repr

namespace ModifierState

def new : ModifierState where
  modifiers := {}
  sawKeystroke := false

/-- The keystroke of a tapped modifier. -/
def tap (modifiers : Modifiers) : Option Keystroke :=
  modifiers.tapKey.map fun key => { modifiers := {}, key, keyChar := none }

/-- The keystroke of an event, and what is pending after it. -/
def dispatchKeyEvent (self : ModifierState) : KeyEvent → Option Keystroke × ModifierState
  | .modifiersChanged modifiers =>
      let keystroke :=
        if modifiers.numberOfModifiers = 0 ∧ self.modifiers.numberOfModifiers = 1 ∧
            self.sawKeystroke = false then
          tap self.modifiers
        else none
      let sawKeystroke :=
        if self.modifiers.numberOfModifiers = 0 ∧ modifiers.numberOfModifiers = 1 then false
        else self.sawKeystroke
      (keystroke, { modifiers, sawKeystroke })
  | .keyDown keystroke => (some keystroke, { self with sawKeystroke := true })

/-- What is pending after events. -/
def run (events : List KeyEvent) : ModifierState :=
  events.foldl (fun state event => (state.dispatchKeyEvent event).2) new

@[simp]
theorem run_snoc (events : List KeyEvent) (event : KeyEvent) :
    run (events ++ [event]) = ((run events).dispatchKeyEvent event).2 := by
  simp only [run, List.foldl_append, List.foldl_cons, List.foldl_nil]

/-! ## What was held -/

/-- The modifiers that were reported last. -/
def heldAfter (events : List KeyEvent) : Modifiers :=
  events.foldl (fun held event =>
    match event with
    | .modifiersChanged modifiers => modifiers
    | .keyDown _ => held) {}

/-- Since none were held, one modifier was, and no key was pressed. -/
def HeldAlone (events : List KeyEvent) (modifiers : Modifiers) : Prop :=
  ∃ before since, events = before ++ since ∧ (heldAfter before).numberOfModifiers = 0 ∧
    since ≠ [] ∧ ∀ event ∈ since, event = .modifiersChanged modifiers

/-- Since none were held, other modifiers were reported as well. -/
def OtherHeld (events : List KeyEvent) (modifiers : Modifiers) : Prop :=
  ∃ before other since, events = before ++ .modifiersChanged other :: since ∧
    other ≠ modifiers ∧ other.numberOfModifiers ≠ 0 ∧
    ∀ reported, .modifiersChanged reported ∈ since → reported.numberOfModifiers ≠ 0

/-- At every event of a run, a modifier is tapped if it was held alone until no modifiers
are held, and otherwise not. -/
def TapsHeldAlone (events : List KeyEvent) : Prop :=
  ∀ before reported after, events = before ++ .modifiersChanged reported :: after →
    ∀ modifiers, modifiers.numberOfModifiers = 1 →
      (((run before).dispatchKeyEvent (.modifiersChanged reported)).1 = tap modifiers ↔
        reported.numberOfModifiers = 0 ∧ HeldAlone before modifiers)

/-- The five modifiers. -/
theorem eq_of_one {modifiers : Modifiers} (one : modifiers.numberOfModifiers = 1) :
    modifiers = { control := true } ∨ modifiers = { alt := true } ∨
      modifiers = { shift := true } ∨ modifiers = { platform := true } ∨
      modifiers = { function := true } := by
  rcases modifiers with ⟨control, alt, shift, platform, function⟩
  revert one
  cases control <;> cases alt <;> cases shift <;> cases platform <;> cases function <;> decide

theorem tap_ne_none {modifiers : Modifiers} (one : modifiers.numberOfModifiers = 1) :
    tap modifiers ≠ none := by
  rcases eq_of_one one with rfl | rfl | rfl | rfl | rfl
  all_goals decide

/-- A tap tells the modifier. -/
theorem tap_injective {modifiers other : Modifiers} (one : modifiers.numberOfModifiers = 1)
    (otherOne : other.numberOfModifiers = 1) (same : tap modifiers = tap other) :
    modifiers = other := by
  rcases eq_of_one one with rfl | rfl | rfl | rfl | rfl
  all_goals
    rcases eq_of_one otherOne with rfl | rfl | rfl | rfl | rfl
    all_goals
      revert same
      decide

theorem heldAfter_snoc (events : List KeyEvent) (event : KeyEvent) :
    heldAfter (events ++ [event]) =
      match event with
      | .modifiersChanged modifiers => modifiers
      | .keyDown _ => heldAfter events := by
  simp only [heldAfter, List.foldl_append, List.foldl_cons, List.foldl_nil]

/-- What is pending are the modifiers that are held. -/
theorem run_modifiers (events : List KeyEvent) : (run events).modifiers = heldAfter events := by
  induction events using List.reverseRecOn with
  | nil => rfl
  | append_singleton events event ih =>
      rw [run_snoc, heldAfter_snoc]
      cases event with
      | modifiersChanged modifiers => rfl
      | keyDown keystroke => exact ih

/-- A report after which none is of no modifiers leaves some held. -/
theorem heldAfter_ne_zero {before since : List KeyEvent} {other : Modifiers}
    (some_ : other.numberOfModifiers ≠ 0)
    (since_ : ∀ reported, .modifiersChanged reported ∈ since →
      reported.numberOfModifiers ≠ 0) :
    (heldAfter (before ++ .modifiersChanged other :: since)).numberOfModifiers ≠ 0 := by
  induction since using List.reverseRecOn with
  | nil =>
      rw [heldAfter_snoc]
      exact some_
  | append_singleton since event ih =>
      rw [← List.cons_append, ← List.append_assoc, heldAfter_snoc]
      cases event with
      | modifiersChanged modifiers =>
          exact since_ modifiers (List.mem_append_right _ (List.mem_singleton_self _))
      | keyDown keystroke =>
          exact ih fun reported member => since_ reported (List.mem_append_left _ member)

/-- A modifier that is held alone is pending, and no key press is noted. -/
theorem HeldAlone.run {events : List KeyEvent} {modifiers : Modifiers}
    (one : modifiers.numberOfModifiers = 1) (alone : HeldAlone events modifiers) :
    run events = { modifiers, sawKeystroke := false } := by
  rcases alone with ⟨before, since, rfl, noneHeld, nonempty, reported⟩
  induction since using List.reverseRecOn with
  | nil => exact absurd rfl nonempty
  | append_singleton since event ih =>
      have isReport := reported event (List.mem_append_right _ (List.mem_singleton_self _))
      rw [← List.append_assoc, run_snoc, isReport]
      by_cases first : since = []
      · rw [first, List.append_nil]
        simp only [dispatchKeyEvent, run_modifiers, noneHeld, one, and_self, if_true]
      · have pending := ih first fun event member =>
          reported event (List.mem_append_left _ member)
        rw [pending]
        simp only [dispatchKeyEvent, one, Nat.one_ne_zero, false_and, if_false]

/-- A modifier that is held alone is the only one that is reported. -/
theorem HeldAlone.not_otherHeld {events : List KeyEvent} {modifiers : Modifiers}
    (alone : HeldAlone events modifiers) : ¬ OtherHeld events modifiers := by
  rintro ⟨earlier, other, later, split, isOther, some_, laterReports⟩
  rcases alone with ⟨before, since, rfl, noneHeld, -, reported⟩
  rcases List.append_eq_append_iff.mp split with ⟨between, rfl, isSince⟩ | ⟨between, rfl, isLater⟩
  · have within : .modifiersChanged other ∈ since := by
      rw [isSince]
      exact List.mem_append_right _ List.mem_cons_self
    exact isOther (KeyEvent.modifiersChanged.inj (reported _ within))
  · cases between with
    | nil =>
        have within : .modifiersChanged other ∈ since := by
          rw [← List.nil_append since, ← isLater]
          exact List.mem_cons_self
        exact isOther (KeyEvent.modifiersChanged.inj (reported _ within))
    | cons event between =>
        rcases List.cons.inj isLater with ⟨rfl, rfl⟩
        exact heldAfter_ne_zero some_
          (fun report member => laterReports report (List.mem_append_left _ member)) noneHeld

/-- Modifiers that are held were reported, and nothing was since. -/
theorem exists_report {events : List KeyEvent} (held : (heldAfter events).numberOfModifiers ≠ 0) :
    ∃ before since, events = before ++ .modifiersChanged (heldAfter events) :: since ∧
      ∀ reported, .modifiersChanged reported ∉ since := by
  induction events using List.reverseRecOn with
  | nil => exact absurd rfl held
  | append_singleton events event ih =>
      rw [heldAfter_snoc] at held ⊢
      cases event with
      | modifiersChanged modifiers => exact ⟨events, [], rfl, fun _ member => by cases member⟩
      | keyDown keystroke =>
          rcases ih held with ⟨before, since, split, none_⟩
          refine ⟨before, since ++ [.keyDown keystroke], ?_, ?_⟩
          · rw [← List.cons_append, ← List.append_assoc, ← split]
          · intro reported member
            rcases List.mem_append.mp member with member | member
            · exact none_ reported member
            · cases List.mem_singleton.mp member

theorem OtherHeld.snoc {events : List KeyEvent} {modifiers reported : Modifiers}
    (other : OtherHeld events modifiers) (some_ : reported.numberOfModifiers ≠ 0) :
    OtherHeld (events ++ [.modifiersChanged reported]) modifiers := by
  rcases other with ⟨before, other, since, rfl, isOther, otherSome, since_⟩
  refine ⟨before, other, since ++ [.modifiersChanged reported], ?_, isOther, otherSome, ?_⟩
  · rw [List.append_assoc, List.cons_append]
  · intro report member
    rcases List.mem_append.mp member with member | member
    · exact since_ report member
    · rcases KeyEvent.modifiersChanged.inj (List.mem_singleton.mp member) with rfl
      exact some_

/-- A modifier that is pending without a key press was held alone, unless others were held
as well. -/
theorem heldAlone_of_run {events : List KeyEvent} {modifiers : Modifiers}
    (one : modifiers.numberOfModifiers = 1)
    (pending : run events = { modifiers, sawKeystroke := false })
    (noOther : ¬ OtherHeld events modifiers) : HeldAlone events modifiers := by
  induction events using List.reverseRecOn with
  | nil =>
      rcases (ModifierState.mk.inj pending).1 with rfl
      cases one
  | append_singleton events event ih =>
      rw [run_snoc] at pending
      cases event with
      | keyDown keystroke => cases (ModifierState.mk.inj pending).2
      | modifiersChanged reported =>
          rcases ModifierState.mk.inj pending with ⟨rfl, saw⟩
          by_cases noneHeld : (heldAfter events).numberOfModifiers = 0
          · refine ⟨events, [.modifiersChanged reported], rfl, noneHeld, by simp, ?_⟩
            intro event member
            exact List.mem_singleton.mp member
          · have some_ : reported.numberOfModifiers ≠ 0 := by
              rw [one]
              exact Nat.one_ne_zero
            have same : heldAfter events = reported := by
              by_contra isOther
              rcases exists_report noneHeld with ⟨before, since, split, none_⟩
              apply noOther
              refine ⟨before, heldAfter events, since ++ [.modifiersChanged reported], ?_,
                isOther, noneHeld, ?_⟩
              · rw [← List.cons_append, ← List.append_assoc, ← split]
              · intro report member
                rcases List.mem_append.mp member with member | member
                · exact absurd member (none_ report)
                · rcases KeyEvent.modifiersChanged.inj (List.mem_singleton.mp member) with rfl
                  exact some_
            have kept : (run events).sawKeystroke = false := by
              rw [run_modifiers, if_neg fun both => noneHeld both.1] at saw
              exact saw
            have before : run events = { modifiers := reported, sawKeystroke := false } := by
              rw [← same, ← run_modifiers, ← kept]
            rcases ih before fun other => noOther (other.snoc some_) with
              ⟨front, since, rfl, frontHeld, nonempty, each⟩
            refine ⟨front, since ++ [.modifiersChanged reported], ?_, frontHeld, ?_, ?_⟩
            · rw [List.append_assoc]
            · simp
            · intro event member
              rcases List.mem_append.mp member with member | member
              · exact each event member
              · exact List.mem_singleton.mp member

/-- The keystroke of a report is the tap of what is pending, or none. -/
theorem dispatch_eq_tap_iff (state : ModifierState) {reported modifiers : Modifiers}
    (one : modifiers.numberOfModifiers = 1) :
    (state.dispatchKeyEvent (.modifiersChanged reported)).1 = tap modifiers ↔
      reported.numberOfModifiers = 0 ∧ state = { modifiers, sawKeystroke := false } := by
  simp only [dispatchKeyEvent]
  constructor
  · intro isTap
    by_cases tapped : reported.numberOfModifiers = 0 ∧ state.modifiers.numberOfModifiers = 1 ∧
        state.sawKeystroke = false
    · rw [if_pos tapped] at isTap
      rcases tap_injective tapped.2.1 one isTap with rfl
      refine ⟨tapped.1, ?_⟩
      rw [← tapped.2.2]
    · rw [if_neg tapped] at isTap
      exact absurd isTap.symm (tap_ne_none one)
  · rintro ⟨noneReported, rfl⟩
    rw [if_pos ⟨noneReported, one, rfl⟩]

end ModifierState

end Gpui
