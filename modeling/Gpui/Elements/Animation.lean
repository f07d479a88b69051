import Gpui.Style.Highlight
import Gpui.Window.ElementFrames

/-!
# Animations

The element state holds which animation of a chain is played and when it was started.  The
chain itself comes with the element and may be another one in every frame.

The index is not checked against the chain of the frame.  A chain that gets too short under
it panics.
-/

namespace Gpui

open Library

/-- An animation, whose easing maps the numbers between 0 and 1 to such.  The duration is in
nanoseconds. -/
structure Animation (K : Type) [Field K] [LinearOrder K] where
  duration : Nat
  oneshot : Bool
  easing : K → K
  duration_pos : 0 < duration
  easing_mem : ∀ delta, 0 ≤ delta → delta ≤ 1 → 0 ≤ easing delta ∧ easing delta ≤ 1

structure AnimationState where
  start : Nat
  animationIx : Nat
deriving DecidableEq, Repr

/-- The element in a frame of the window, with what the clock reads when the state is made,
when the elapsed time is asked for and when the next animation is started. -/
structure AnimationElement (K : Type) [Field K] [LinearOrder K] where
  animations : List (Animation K)
  created : Nat
  now : Nat
  restarted : Nat
  animations_ne_nil : animations ≠ []

/-- What is played in a frame: the delta that is given to the easing and the one that is
given to the animator. -/
structure PlayedAnimation (K : Type) where
  delta : K
  eased : K
  requestsAnimationFrame : Bool

/-- A frame, with what is played unless the chain has no such animation. -/
structure AnimationFrame (K : Type) [Field K] [LinearOrder K] where
  animations : List (Animation K)
  animationIx : Nat
  elapsed : Nat
  played : Option (PlayedAnimation K)

namespace AnimationElement

variable {K : Type} [Field K] [LinearOrder K]

/-- `as_secs_f32`. -/
def asSecs (duration : Nat) : K :=
  (duration : K) / ((1000000000 : ℕ) : K)

/-- The state of the element, made if there is none. -/
def openState (self : AnimationElement K) (state : Option AnimationState) : AnimationState :=
  state.getD ⟨self.created, 0⟩

variable [FloorRing K]

/-- What is played of an animation of the chain, and the state that is kept. -/
def playAnimation (self : AnimationElement K) (state : AnimationState)
    (animation : Animation K) : PlayedAnimation K × AnimationState :=
  let delta : K := asSecs (self.now - state.start) / asSecs animation.duration
  if delta > 1 then
    if animation.oneshot then
      if state.animationIx ≥ self.animations.length - 1 then
        (⟨1, animation.easing 1, false⟩, state)
      else (⟨1, animation.easing 1, true⟩, ⟨self.restarted, state.animationIx + 1⟩)
    else
      let delta := floatRem delta 1
      (⟨delta, animation.easing delta, true⟩, state)
  else (⟨delta, animation.easing delta, true⟩, state)

/-- `self.animations[animation_ix]` and what follows. -/
def play (self : AnimationElement K) (state : AnimationState) :
    Option (PlayedAnimation K × AnimationState) :=
  self.animations[state.animationIx]?.map (self.playAnimation state)

/-- The frame that is drawn from a state. -/
def frame (self : AnimationElement K) (state : AnimationState) : AnimationFrame K where
  animations := self.animations
  animationIx := state.animationIx
  elapsed := self.now - state.start
  played := (self.play state).map Prod.fst

/-- `request_layout`, which is a frame of the window. -/
def requestLayout (state : Option AnimationState) (self : AnimationElement K) :
    Logged (AnimationFrame K) (Option AnimationState) :=
  let state := self.openState state
  .attempt (self.frame state) ((self.play state).map fun played => some played.2)

/-- The frames of the window from the first that has the element. -/
def run (elements : List (AnimationElement K)) :
    Logged (AnimationFrame K) (Option AnimationState) :=
  Logged.iterate requestLayout none elements

end AnimationElement

/-! ## Playing in order -/

namespace AnimationFrame

variable {K : Type} [Field K] [LinearOrder K]

/-- The last animation of the chain is a one-shot animation and has ended. -/
def Ended (self : AnimationFrame K) : Prop :=
  ∃ animation, self.animations[self.animationIx]? = some animation ∧
    self.animationIx + 1 = self.animations.length ∧ animation.oneshot = true ∧
      animation.duration < self.elapsed

/-- An animation of the chain is played. -/
structure Plays (frame : AnimationFrame K) (played : PlayedAnimation K) : Prop where
  isPlayed : frame.played = some played
  delta_nonneg : 0 ≤ played.delta
  delta_le : played.delta ≤ 1
  eased_nonneg : 0 ≤ played.eased
  eased_le : played.eased ≤ 1
  requests : played.requestsAnimationFrame = true ↔ ¬ frame.Ended

/-- The animation of a frame is that of the frame before, or follows it. -/
def Follows (self next : AnimationFrame K) : Prop :=
  next.animationIx = self.animationIx ∨
    next.animationIx = self.animationIx + 1 ∧
      ∃ animation played, self.animations[self.animationIx]? = some animation ∧
        animation.oneshot = true ∧ self.played = some played ∧ played.delta = 1

end AnimationFrame

structure PlaysInOrder {K : Type} [Field K] [LinearOrder K]
    (frames : List (AnimationFrame K)) : Prop where
  inChain : ∀ frame ∈ frames, frame.animationIx < frame.animations.length
  plays : ∀ frame ∈ frames, ∃ played, frame.Plays played
  ordered : frames.IsChain AnimationFrame.Follows

namespace AnimationElement

variable {K : Type} [Field K] [LinearOrder K] [IsStrictOrderedRing K] [FloorRing K]

omit [FloorRing K] in
/-- The ratio of the elapsed time to the duration. -/
theorem one_lt_delta_iff (elapsed : Nat) (animation : Animation K) :
    1 < (asSecs elapsed / asSecs animation.duration : K) ↔ animation.duration < elapsed := by
  have billion : (0 : K) < ((1000000000 : ℕ) : K) := Nat.cast_pos.mpr (by norm_num)
  have duration : (0 : K) < asSecs animation.duration :=
    div_pos (Nat.cast_pos.mpr animation.duration_pos) billion
  rw [one_lt_div duration, asSecs, asSecs, div_lt_div_iff_of_pos_right billion, Nat.cast_lt]

omit [FloorRing K] in
theorem delta_nonneg (elapsed duration : Nat) : 0 ≤ (asSecs elapsed / asSecs duration : K) := by
  apply div_nonneg
  · exact div_nonneg (Nat.cast_nonneg _) (Nat.cast_nonneg _)
  · exact div_nonneg (Nat.cast_nonneg _) (Nat.cast_nonneg _)

omit [IsStrictOrderedRing K] in
theorem floatRem_one_eq_fract {delta : K} (nonneg : 0 ≤ delta) :
    floatRem delta 1 = Int.fract delta := by
  have quotient : (0 : K) ≤ delta / 1 := by rwa [div_one]
  simp only [floatRem]
  rw [if_pos quotient, div_one, one_mul, Int.fract]

/-- An animation goes on, or it is a one-shot animation that has ended, which is the last of
the chain or followed by the next. -/
theorem playAnimation_cases (self : AnimationElement K) (state : AnimationState)
    (animation : Animation K) :
    (¬ (animation.oneshot = true ∧ animation.duration < self.now - state.start) ∧
      ∃ delta, 0 ≤ delta ∧ delta ≤ 1 ∧
        self.playAnimation state animation = (⟨delta, animation.easing delta, true⟩, state)) ∨
    ((animation.oneshot = true ∧ animation.duration < self.now - state.start) ∧
      self.animations.length - 1 ≤ state.animationIx ∧
        self.playAnimation state animation = (⟨1, animation.easing 1, false⟩, state)) ∨
    ((animation.oneshot = true ∧ animation.duration < self.now - state.start) ∧
      state.animationIx < self.animations.length - 1 ∧
        self.playAnimation state animation =
          (⟨1, animation.easing 1, true⟩, ⟨self.restarted, state.animationIx + 1⟩)) := by
  have ratio := one_lt_delta_iff (K := K) (self.now - state.start) animation
  have nonneg := delta_nonneg (K := K) (self.now - state.start) animation.duration
  by_cases ended : animation.duration < self.now - state.start
  · by_cases isOneshot : animation.oneshot = true
    · by_cases isLast : self.animations.length - 1 ≤ state.animationIx
      · refine .inr (.inl ⟨⟨isOneshot, ended⟩, isLast, ?_⟩)
        simp only [playAnimation]
        rw [if_pos (ratio.mpr ended), if_pos isOneshot, if_pos isLast]
      · refine .inr (.inr ⟨⟨isOneshot, ended⟩, not_le.mp isLast, ?_⟩)
        simp only [playAnimation]
        rw [if_pos (ratio.mpr ended), if_pos isOneshot, if_neg isLast]
    · refine .inl ⟨fun both => isOneshot both.1,
        Int.fract (asSecs (self.now - state.start) / asSecs animation.duration),
        Int.fract_nonneg _, le_of_lt (Int.fract_lt_one _), ?_⟩
      simp only [playAnimation]
      rw [if_pos (ratio.mpr ended), if_neg isOneshot, floatRem_one_eq_fract nonneg]
  · refine .inl ⟨fun both => ended both.2, _, nonneg, not_lt.mp (mt ratio.mp ended), ?_⟩
    simp only [playAnimation]
    rw [if_neg (mt ratio.mp ended)]

/-- An animation of the chain is played, and the next state is at it or at the next. -/
theorem play_inChain (self : AnimationElement K) {state : AnimationState}
    (inChain : state.animationIx < self.animations.length) :
    ∃ played next, self.play state = some (played, next) ∧
      (self.frame state).Plays played ∧ next.animationIx < self.animations.length ∧
        (next.animationIx = state.animationIx ∨
          next.animationIx = state.animationIx + 1 ∧
            self.animations[state.animationIx].oneshot = true ∧ played.delta = 1) := by
  have found : self.animations[state.animationIx]? =
      some self.animations[state.animationIx] :=
    List.getElem?_eq_getElem inChain
  have isPlay : self.play state =
      some (self.playAnimation state self.animations[state.animationIx]) := by
    rw [play, found, Option.map_some]
  have ended : (self.frame state).Ended ↔
      state.animationIx + 1 = self.animations.length ∧
        self.animations[state.animationIx].oneshot = true ∧
          self.animations[state.animationIx].duration < self.now - state.start := by
    constructor
    · rintro ⟨animation, isAnimation, isLast, isOneshot, late⟩
      rcases Option.some.inj (found.symm.trans isAnimation) with rfl
      exact ⟨isLast, isOneshot, late⟩
    · rintro ⟨isLast, isOneshot, late⟩
      exact ⟨_, found, isLast, isOneshot, late⟩
  generalize self.animations[state.animationIx] = animation at isPlay ended ⊢
  rcases playAnimation_cases self state animation with
    ⟨goesOn, delta, nonneg, le, isPlayed⟩ | ⟨isEnded, isLast, isPlayed⟩ |
      ⟨isEnded, notLast, isPlayed⟩
  · rw [isPlayed] at isPlay
    refine ⟨_, _, isPlay, ⟨by rw [frame, isPlay]; rfl, nonneg, le,
      (animation.easing_mem delta nonneg le).1, (animation.easing_mem delta nonneg le).2, ?_⟩,
      inChain, .inl rfl⟩
    exact iff_of_true rfl fun hasEnded => goesOn (ended.mp hasEnded).2
  · rw [isPlayed] at isPlay
    have eased := animation.easing_mem 1 zero_le_one le_rfl
    refine ⟨_, _, isPlay, ⟨by rw [frame, isPlay]; rfl, zero_le_one, le_rfl, eased.1, eased.2, ?_⟩,
      inChain, .inl rfl⟩
    refine iff_of_false Bool.false_ne_true (not_not.mpr (ended.mpr ⟨?_, isEnded⟩))
    omega
  · rw [isPlayed] at isPlay
    have eased := animation.easing_mem 1 zero_le_one le_rfl
    refine ⟨_, _, isPlay, ⟨by rw [frame, isPlay]; rfl, zero_le_one, le_rfl, eased.1, eased.2, ?_⟩,
      by simp only; omega, .inr ⟨rfl, isEnded.1, rfl⟩⟩
    refine iff_of_true rfl ?_
    intro hasEnded
    have isLast := (ended.mp hasEnded).1
    omega

omit [IsStrictOrderedRing K] in
theorem play_outside (self : AnimationElement K) {state : AnimationState}
    (outside : ¬ state.animationIx < self.animations.length) : self.play state = none := by
  rw [play, List.getElem?_eq_none (not_lt.mp outside)]
  rfl

/-! ## Frame after frame -/

theorem plays_of_inChain (state : Option AnimationState) (self : AnimationElement K) :
    ∀ frame ∈ (requestLayout state self).log, frame.animationIx < frame.animations.length →
      ∃ played, frame.Plays played := by
  intro frame member inChain
  rcases List.mem_singleton.mp member with rfl
  rcases play_inChain self inChain with ⟨played, -, -, plays, -⟩
  exact ⟨played, plays⟩

theorem animationIx_of_requestLayout {state next : Option AnimationState}
    {self : AnimationElement K} (drawn : (requestLayout state self).result = some next) :
    ∃ kept, next = some kept ∧ kept.animationIx < self.animations.length ∧
      ∀ frame : AnimationFrame K, frame.animationIx = kept.animationIx →
        (self.frame (self.openState state)).Follows frame := by
  by_cases inChain : (self.openState state).animationIx < self.animations.length
  · rcases play_inChain self inChain with ⟨played, kept, isPlay, plays, kept_lt, moves⟩
    simp only [requestLayout, Logged.attempt, isPlay, Option.map_some] at drawn
    rcases Option.some.inj drawn with rfl
    refine ⟨kept, rfl, kept_lt, ?_⟩
    intro frame isIx
    rcases moves with stays | ⟨isNext, isOneshot, isOne⟩
    · exact .inl (isIx.trans stays)
    · refine .inr ⟨isIx.trans isNext, _, played, List.getElem?_eq_getElem inChain, isOneshot,
        plays.isPlayed, isOne⟩
  · simp only [requestLayout, Logged.attempt, play_outside self inChain] at drawn
    cases drawn

omit [IsStrictOrderedRing K] in
/-- The first frame is drawn from the state there is. -/
theorem head_log {state : Option AnimationState} {elements : List (AnimationElement K)}
    {frame : AnimationFrame K}
    (isHead : frame ∈ (Logged.iterate requestLayout state elements).log.head?) :
    ∃ element ∈ elements.head?, frame = element.frame (element.openState state) := by
  cases elements with
  | nil => cases isHead
  | cons element elements =>
      refine ⟨element, rfl, ?_⟩
      have isFirst : (Logged.iterate requestLayout state (element :: elements)).log.head? =
          some (element.frame (element.openState state)) := by
        simp only [Logged.iterate, Logged.bind]
        split
        · rfl
        · rfl
      rw [isFirst] at isHead
      exact (Option.some.inj isHead).symm

/-- Each animation is that of the frame before or follows it, as far as frames are drawn. -/
theorem isChain_log (state : Option AnimationState) (elements : List (AnimationElement K)) :
    (Logged.iterate requestLayout state elements).log.IsChain AnimationFrame.Follows := by
  induction elements generalizing state with
  | nil => exact .nil
  | cons element elements ih =>
      cases drawn : (requestLayout state element).result with
      | none =>
          simp only [Logged.iterate, Logged.bind, drawn]
          exact .singleton _
      | some next =>
          rcases animationIx_of_requestLayout drawn with ⟨kept, rfl, -, follows⟩
          simp only [Logged.iterate, Logged.bind, drawn]
          apply List.isChain_cons.mpr
          refine ⟨?_, ih (some kept)⟩
          intro frame isHead
          rcases head_log isHead with ⟨following, -, rfl⟩
          exact follows _ rfl

omit [IsStrictOrderedRing K] in
theorem requestLayout_inChain (state : Option AnimationState) (self : AnimationElement K) :
    (∀ frame ∈ (requestLayout state self).log, frame.animationIx < frame.animations.length) ↔
      (self.openState state).animationIx < self.animations.length := by
  constructor
  · intro inChain
    exact inChain _ (List.mem_singleton_self _)
  · intro inChain frame member
    rcases List.mem_singleton.mp member with rfl
    exact inChain

/-- The frames return when those of the window do, in which the state is kept by the window. -/
theorem run_isSome {Key : Type} [DecidableEq Key] (key : Key)
    (elements : List (AnimationElement K)) :
    (run elements).result.isSome =
      ((ElementStateWindow.new : ElementStateWindow fun _ : Key => AnimationState).drawFrames key
        (elements.map (stepClosure requestLayout))).isSome := by
  rw [ElementStateWindow.drawFrames_eq ElementStateWindow.new_idle]
  apply Eq.symm
  apply threadState_isSome
  intro state element next drawn
  rcases animationIx_of_requestLayout drawn with ⟨kept, rfl, -, -⟩
  rfl

/-- Chains play in order if and only if no chain gets too short for the animation that is to
be played next. -/
theorem playsInOrder_iff (elements : List (AnimationElement K)) :
    PlaysInOrder (run elements).log ↔
      ∀ before last element after state, elements = before ++ last :: element :: after →
        element.animations.length < last.animations.length →
          (run (before ++ [last])).result = some (some state) →
            state.animationIx < element.animations.length := by
  constructor
  · intro inOrder before last element after state split _ ran
    have inChain := Logged.forall_log_iterate.mp inOrder.inChain (before ++ [last]) element after
      (some state) (by rw [split, List.append_assoc]; rfl) ran
    exact (requestLayout_inChain _ _).mp inChain
  · intro longEnough
    have inChain : ∀ frame ∈ (run elements).log,
        frame.animationIx < frame.animations.length := by
      rw [run, Logged.forall_log_iterate]
      intro before element after reached split ran
      rw [requestLayout_inChain]
      rcases List.eq_nil_or_concat before with rfl | ⟨before, last, rfl⟩
      · rcases Option.some.inj ran with rfl
        exact List.length_pos_of_ne_nil element.animations_ne_nil
      · rw [List.concat_eq_append] at split ran
        rcases Logged.iterate_snoc_result ran with ⟨earlier, -, drawn⟩
        rcases animationIx_of_requestLayout drawn with ⟨kept, rfl, within, -⟩
        by_cases shorter : element.animations.length < last.animations.length
        · exact longEnough before last element after kept
            (by rw [split, List.append_assoc]; rfl) shorter ran
        · exact lt_of_lt_of_le within (not_lt.mp shorter)
    have plays : ∀ frame ∈ (run elements).log,
        frame.animationIx < frame.animations.length → ∃ played, frame.Plays played := by
      rw [run, Logged.forall_log_iterate]
      intro _ element _ reached _ _
      exact plays_of_inChain reached element
    refine ⟨inChain, ?_, isChain_log none elements⟩
    intro frame member
    exact plays frame member (inChain frame member)

/-- A chain that stays the same plays in order. -/
theorem playsInOrder_iff_same : ∃ first second : AnimationElement ℚ,
    first.animations.length = 2 ∧ PlaysInOrder (run [first, second]).log := by
  let animation : Animation ℚ :=
    ⟨1, true, id, Nat.one_pos, fun _ nonneg le => ⟨nonneg, le⟩⟩
  let first : AnimationElement ℚ :=
    ⟨[animation, animation], 0, 2, 2, List.cons_ne_nil _ _⟩
  let second : AnimationElement ℚ := ⟨[animation, animation], 3, 3, 3, List.cons_ne_nil _ _⟩
  apply Exists.intro first
  apply Exists.intro second
  constructor
  · rfl
  · apply (playsInOrder_iff [first, second]).mpr
    intro before last element after state split shorter
    rcases before with _ | ⟨_, _ | ⟨_, _⟩⟩
    · cases split
      exact absurd shorter (lt_irrefl 2)
    · cases split
    · simp at split

/-- A chain of two animations is played to its second, and gives way to a chain of one. -/
theorem not_playsInOrder :
    ¬ ∀ elements : List (AnimationElement ℚ), PlaysInOrder (run elements).log := by
  intro inOrder
  let animation : Animation ℚ :=
    ⟨1, true, id, Nat.one_pos, fun _ nonneg le => ⟨nonneg, le⟩⟩
  let first : AnimationElement ℚ :=
    ⟨[animation, animation], 0, 2, 2, List.cons_ne_nil _ _⟩
  let second : AnimationElement ℚ := ⟨[animation], 3, 3, 3, List.cons_ne_nil _ _⟩
  have moved : (run [first]).result = some (some ⟨2, 1⟩) := by
    rcases playAnimation_cases first ⟨0, 0⟩ animation with
      ⟨goesOn, -⟩ | ⟨-, isLast, -⟩ | ⟨-, -, isPlayed⟩
    · exact absurd ⟨rfl, by decide⟩ goesOn
    · exact absurd isLast (by decide)
    · have isPlay : first.play ⟨0, 0⟩ = some (first.playAnimation ⟨0, 0⟩ animation) := rfl
      have drawn : (requestLayout none first).result = some (some ⟨2, 1⟩) := by
        rw [isPlayed] at isPlay
        simp only [requestLayout, Logged.attempt, openState, Option.getD_none]
        rw [isPlay]
        rfl
      simp only [run, Logged.iterate, Logged.bind, drawn]
      rfl
  have inChain := Logged.forall_log_iterate.mp (inOrder [first, second]).inChain [first] second []
    _ rfl moved
  have within := (requestLayout_inChain _ second).mp inChain
  exact absurd within (by decide)

end AnimationElement

end Gpui
