import Mathlib

/-!
# Sweeping over events

Events stand at positions and change a state.  A sweep over them in order yields the gaps
between one position and the next, each with the state in which it is crossed.
-/

namespace Gpui.Library

variable {σ ε : Type} (position : ε → Nat) (update : σ → ε → σ)

/-- A gap between positions, and the state there. -/
structure Gap (σ : Type) where
  start : Nat
  stop : Nat
  state : σ
deriving DecidableEq, Repr

def sweep : Nat → σ → List ε → List (Gap σ)
  | _, _, [] => []
  | ix, state, event :: events =>
      let rest := sweep (position event) (update state event) events
      if ix < position event then ⟨ix, position event, state⟩ :: rest else rest

/-- Where a sweep is after events. -/
def sweptTo (ix : Nat) (events : List ε) : Nat :=
  events.foldl (fun _ event => position event) ix

variable {position update}

theorem mem_sweep_iff {ix : Nat} {state : σ} {events : List ε} {gap : Gap σ} :
    gap ∈ sweep position update ix state events ↔
      ∃ front event back, events = front ++ event :: back ∧
        gap = ⟨sweptTo position ix front, position event, front.foldl update state⟩ ∧
        sweptTo position ix front < position event := by
  induction events generalizing ix state with
  | nil =>
      constructor
      · intro member
        cases member
      · rintro ⟨front, event, back, split, -⟩
        simp at split
  | cons first events ih =>
      have further : gap ∈ sweep position update (position first) (update state first) events ↔
          ∃ front event back, first :: events = first :: front ++ event :: back ∧
            gap = ⟨sweptTo position ix (first :: front), position event,
              (first :: front).foldl update state⟩ ∧
            sweptTo position ix (first :: front) < position event := by
        rw [ih]
        simp only [List.cons_append, List.cons.injEq, true_and]
        rfl
      constructor
      · intro member
        rw [sweep] at member
        by_cases before : ix < position first
        · rw [if_pos before] at member
          rcases List.mem_cons.mp member with rfl | member
          · exact ⟨[], first, events, rfl, rfl, before⟩
          · rcases further.mp member with ⟨front, event, back, there⟩
            exact ⟨first :: front, event, back, there⟩
        · rw [if_neg before] at member
          rcases further.mp member with ⟨front, event, back, there⟩
          exact ⟨first :: front, event, back, there⟩
      · rintro ⟨front, event, back, split, isGap, before⟩
        rw [sweep]
        cases front with
        | nil =>
            rcases List.cons.inj split with ⟨rfl, rfl⟩
            have crossed : ix < position first := before
            rw [if_pos crossed, isGap]
            exact List.mem_cons_self
        | cons other front =>
            rcases List.cons.inj split with ⟨rfl, rest⟩
            have member := further.mpr ⟨front, event, back, split, isGap, before⟩
            by_cases crossed : ix < position first
            · rw [if_pos crossed]
              exact List.mem_cons_of_mem _ member
            · rw [if_neg crossed]
              exact member

/-- Gaps are not empty. -/
theorem start_lt_stop_of_mem_sweep {ix : Nat} {state : σ} {events : List ε} {gap : Gap σ}
    (member : gap ∈ sweep position update ix state events) : gap.start < gap.stop := by
  rcases mem_sweep_iff.1 member with ⟨front, event, back, -, rfl, before⟩
  exact before

/-- The events are in order, from a position on. -/
def SweptFrom (position : ε → Nat) (ix : Nat) (events : List ε) : Prop :=
  events.Pairwise (fun first second => position first ≤ position second) ∧
    ∀ event ∈ events, ix ≤ position event

theorem SweptFrom.tail {ix : Nat} {event : ε} {events : List ε}
    (swept : SweptFrom position ix (event :: events)) :
    SweptFrom position (position event) events :=
  ⟨(List.pairwise_cons.mp swept.1).2, (List.pairwise_cons.mp swept.1).1⟩

theorem SweptFrom.le_sweptTo {ix : Nat} {events : List ε} (swept : SweptFrom position ix events) :
    ix ≤ sweptTo position ix events ∧
      ∀ event ∈ events, position event ≤ sweptTo position ix events := by
  induction events generalizing ix with
  | nil =>
      refine ⟨le_refl ix, ?_⟩
      intro event member
      cases member
  | cons first events ih =>
      rcases ih swept.tail with ⟨reached, each⟩
      refine ⟨(swept.2 first List.mem_cons_self).trans reached, ?_⟩
      intro event member
      rcases List.mem_cons.mp member with rfl | member
      · exact reached
      · exact each event member

theorem le_start_of_mem_sweep {ix : Nat} {state : σ} {events : List ε}
    (swept : SweptFrom position ix events) {gap : Gap σ}
    (member : gap ∈ sweep position update ix state events) : ix ≤ gap.start := by
  rcases mem_sweep_iff.1 member with ⟨front, event, back, rfl, rfl, -⟩
  have sweptFront : SweptFrom position ix front :=
    ⟨(List.pairwise_append.mp swept.1).1,
      fun other among => swept.2 other (List.mem_append_left _ among)⟩
  exact sweptFront.le_sweptTo.1

/-- Gaps are in order and do not overlap. -/
theorem pairwise_sweep {ix : Nat} {state : σ} {events : List ε}
    (swept : SweptFrom position ix events) :
    (sweep position update ix state events).Pairwise fun first second =>
      first.stop ≤ second.start := by
  induction events generalizing ix state with
  | nil => exact List.Pairwise.nil
  | cons event events ih =>
      rw [sweep]
      by_cases crossed : ix < position event
      · rw [if_pos crossed, List.pairwise_cons]
        exact ⟨fun gap member => le_start_of_mem_sweep swept.tail member, ih swept.tail⟩
      · rw [if_neg crossed]
        exact ih swept.tail

/-- Events up to a position stand in front of the others. -/
theorem filter_append_of_swept {ix i : Nat} {front back : List ε} {event : ε}
    (swept : SweptFrom position ix (front ++ event :: back))
    (reached : sweptTo position ix front ≤ i) (before : i < position event) :
    (front ++ event :: back).filter (fun other => position other ≤ i) = front := by
  rcases List.pairwise_append.mp swept.1 with ⟨ordered, orderedBack, -⟩
  have sweptFront : SweptFrom position ix front :=
    ⟨ordered, fun other among => swept.2 other (List.mem_append_left _ among)⟩
  have kept : front.filter (fun other => position other ≤ i) = front := by
    rw [List.filter_eq_self]
    intro other member
    exact decide_eq_true ((sweptFront.le_sweptTo.2 other member).trans reached)
  have dropped : (event :: back).filter (fun other => position other ≤ i) = [] := by
    rw [List.filter_eq_nil_iff]
    intro other member
    rw [decide_eq_true_eq]
    rcases List.mem_cons.mp member with rfl | member
    · exact not_le.mpr before
    · exact not_le.mpr (before.trans_le ((List.pairwise_cons.mp orderedBack).1 other member))
  rw [List.filter_append, kept, dropped, List.append_nil]

/-- The state of a gap is what the events up to it have made of the state. -/
theorem state_of_mem_sweep {ix : Nat} {state : σ} {events : List ε}
    (swept : SweptFrom position ix events) {gap : Gap σ}
    (member : gap ∈ sweep position update ix state events) {i : Nat} (after : gap.start ≤ i)
    (before : i < gap.stop) :
    gap.state = (events.filter fun event => position event ≤ i).foldl update state := by
  rcases mem_sweep_iff.1 member with ⟨front, event, back, rfl, rfl, -⟩
  rw [filter_append_of_swept swept after before]

/-- No event stands within a gap. -/
theorem not_within_of_mem_sweep {ix : Nat} {state : σ} {events : List ε}
    (swept : SweptFrom position ix events) {gap : Gap σ}
    (member : gap ∈ sweep position update ix state events) {event : ε} (among : event ∈ events) :
    position event ≤ gap.start ∨ gap.stop ≤ position event := by
  rcases mem_sweep_iff.1 member with ⟨front, next, back, rfl, rfl, -⟩
  rcases List.pairwise_append.mp swept.1 with ⟨ordered, orderedBack, -⟩
  rcases List.mem_append.mp among with inFront | inBack
  · left
    have sweptFront : SweptFrom position ix front :=
      ⟨ordered, fun other among => swept.2 other (List.mem_append_left _ among)⟩
    exact sweptFront.le_sweptTo.2 event inFront
  · right
    rcases List.mem_cons.mp inBack with rfl | inBack
    · exact le_refl _
    · exact (List.pairwise_cons.mp orderedBack).1 event inBack

/-- Every place before the last event lies in a gap. -/
theorem exists_mem_sweep {ix i : Nat} {state : σ} {events : List ε} (after : ix ≤ i)
    (event : ε) (among : event ∈ events) (before : i < position event) :
    ∃ gap ∈ sweep position update ix state events, gap.start ≤ i ∧ i < gap.stop := by
  induction events generalizing ix state with
  | nil => cases among
  | cons first events ih =>
      rw [sweep]
      by_cases crossed : i < position first
      · rw [if_pos (after.trans_lt crossed)]
        exact ⟨_, List.mem_cons_self, after, crossed⟩
      · have further : event ∈ events := by
          rcases List.mem_cons.mp among with rfl | further
          · exact absurd before crossed
          · exact further
        have found : ∃ gap ∈ sweep position update (position first) (update state first) events,
            gap.start ≤ i ∧ i < gap.stop := ih (not_lt.mp crossed) further
        rcases found with ⟨gap, member, there⟩
        by_cases empty : ix < position first
        · rw [if_pos empty]
          exact ⟨gap, List.mem_cons_of_mem _ member, there⟩
        · rw [if_neg empty]
          exact ⟨gap, member, there⟩

end Gpui.Library
