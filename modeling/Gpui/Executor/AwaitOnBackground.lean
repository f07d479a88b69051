import Gpui.Library.Transition

/-!
# Awaiting on the background

The future of `await_on_background` and the future that it spawns, which is an async block
that makes its notify guard when it is first polled and drops it after the given future.
What the task does is that of `async_task`: a task that is closed has its future dropped
without another poll.  A wake-up during a poll is one right after it, and a poll that
panics drops the future.

The wait guard is dropped when the awaiting future returns, panics or is dropped.  A future
that is dropped before its first poll has no notify guard.
-/

namespace Gpui

open Library

/-- Where the spawned future is; whether it was completed, once it is being dropped. -/
inductive BackgroundState where
  | unspawned
  /-- Its runnable is with the executor. -/
  | scheduled
  | polling
  | idle
  | dropping (completed : Bool)
  /-- The given future has been dropped, and its notify guard is next. -/
  | settingDone (completed : Bool)
  /-- The flag is set. -/
  | notifying (completed : Bool)
  | dropped (completed : Bool)
deriving DecidableEq, Repr

/-- Where the awaiting future is. -/
inductive AwaitingState where
  | unpolled
  | awaiting
  /-- At the start of `WaitOnDrop::drop`. -/
  | leaving
  | waiting
  | woken
  | left
deriving DecidableEq, Repr

structure AwaitOnBackground where
  background : BackgroundState
  awaiting : AwaitingState
  /-- The task of the spawned future is closed. -/
  cancelled : Bool
  /-- The spawned future has been polled, so that it has made its notify guard. -/
  polled : Bool
  done : Bool
  /-- The awaiting future is being dropped by code of the spawned one. -/
  within : Bool
deriving DecidableEq, Repr

inductive AwaitEvent where
  | poll
  | drop (within : Bool)
  /-- `WaitOnDrop::drop` takes the lock and reads the flag. -/
  | lockWait
  | wakeUp
  | run
  /-- The executor drops the runnable. -/
  | dropRunnable
  | pollPending
  | pollReady
  | pollPanics
  | wake
  | dropFuture
  | setDone
  | notifyAll
deriving DecidableEq, Repr

namespace BackgroundState

def isDropped : BackgroundState → Bool
  | .dropped _ => true
  | _ => false

def isNotifying : BackgroundState → Bool
  | .notifying _ => true
  | _ => false

/-- The flag is not set yet. -/
def isLive : BackgroundState → Bool
  | .unspawned => false
  | .notifying _ => false
  | .dropped _ => false
  | _ => true

/-- Code of the spawned future runs. -/
def isRunning : BackgroundState → Bool
  | .polling => true
  | .dropping _ => true
  | _ => false

/-- The steps until the future is gone, if it is not polled again. -/
def stepsLeft : BackgroundState → Nat
  | .unspawned => 7
  | .idle => 6
  | .scheduled => 5
  | .polling => 4
  | .dropping _ => 3
  | .settingDone _ => 2
  | .notifying _ => 1
  | .dropped _ => 0

theorem ne_unspawned_of_isLive {state : BackgroundState} (live : state.isLive = true) :
    state ≠ .unspawned := by
  rintro rfl
  cases live

theorem not_isDropped_of_isLive {state : BackgroundState} (live : state.isLive = true) :
    state.isDropped = false := by
  cases state with
  | dropped completed => cases live
  | _ => rfl

theorem not_isNotifying_of_isLive {state : BackgroundState} (live : state.isLive = true) :
    state.isNotifying = false := by
  cases state with
  | notifying completed => cases live
  | _ => rfl

end BackgroundState

namespace AwaitOnBackground

def new : AwaitOnBackground where
  background := .unspawned
  awaiting := .unpolled
  cancelled := false
  polled := false
  done := false
  within := false

/-- `Task::drop` closes the task; a future that waits is scheduled once more, to be dropped. -/
def cancel (self : AwaitOnBackground) : AwaitOnBackground :=
  { self with
    cancelled := true
    background := if self.background = .idle then .scheduled else self.background }

def stepAwaiting (self : AwaitOnBackground) : AwaitEvent → Option AwaitOnBackground
  | .poll =>
      match self.awaiting with
      | .unpolled => some { self with awaiting := .awaiting, background := .scheduled }
      | .awaiting =>
          -- `task.await` returns what a completed task returned, and panics for another.
          if self.background.isDropped then some { self with awaiting := .leaving } else some self
      | _ => none
  | .drop within =>
      match self.awaiting with
      | .unpolled => some { self with awaiting := .left }
      | .awaiting =>
          if within = true ∧ self.background.isRunning = false then none
          else some { self.cancel with awaiting := .leaving, within }
      | _ => none
  | .lockWait =>
      if self.awaiting = .leaving then
        some { self with awaiting := if self.done then .left else .waiting }
      else none
  | .wakeUp =>
      if self.awaiting = .woken then some { self with awaiting := .left } else none
  | _ => none

def stepBackground (self : AwaitOnBackground) : AwaitEvent → Option AwaitOnBackground
  | .run =>
      if self.background = .scheduled then
        if self.cancelled then some { self with background := .dropping false }
        else some { self with background := .polling, polled := true }
      else none
  | .dropRunnable =>
      if self.background = .scheduled then
        some { self with background := .dropping false, cancelled := true }
      else none
  | .pollPending =>
      if self.background = .polling then
        some { self with background := if self.cancelled then .dropping false else .idle }
      else none
  | .pollReady =>
      if self.background = .polling then some { self with background := .dropping true } else none
  | .pollPanics =>
      if self.background = .polling then some { self with background := .dropping false } else none
  | .wake =>
      if self.background = .idle then some { self with background := .scheduled } else none
  | .dropFuture =>
      match self.background with
      | .dropping completed =>
          some { self with
            background := if self.polled then .settingDone completed else .dropped completed }
      | _ => none
  | .setDone =>
      match self.background with
      | .settingDone completed =>
          some { self with background := .notifying completed, done := true }
      | _ => none
  | .notifyAll =>
      match self.background with
      | .notifying completed =>
          some { self with
            background := .dropped completed
            awaiting := if self.awaiting = .waiting then .woken else self.awaiting }
      | _ => none
  | _ => none

def step (self : AwaitOnBackground) (event : AwaitEvent) : Option AwaitOnBackground :=
  match self.stepAwaiting event with
  | some next => some next
  | none => if self.within then none else self.stepBackground event

/-- The wait is for a future that is going to go, and ends no earlier. -/
structure Awaited (future : AwaitOnBackground) : Prop where
  done : future.background.isDropped = true → future.done = true
  left : future.awaiting = .left → future.background = .unspawned ∨ future.background.isDropped = true
  enabled : future.awaiting = .waiting → ∃ event next, future.step event = some next
  bounded : future.awaiting = .waiting → ∀ event next, future.step event = some next →
    next.background.stepsLeft < future.background.stepsLeft

/-- The task is not closed before the spawned future has been polled, the flag is not read
between its store and the notification, and the spawned future does not drop the awaiting
one itself. -/
def Orderly (self : AwaitOnBackground) : AwaitEvent → Prop
  | .drop within => within = false ∧ (self.awaiting = .awaiting → self.polled = true)
  | .dropRunnable => self.polled = true
  | .lockWait => self.background.isNotifying = false
  | _ => True

/-! ## What both sides know -/

/-- The flag is set where the notify guard has been dropped, and the wait guard is dropped
by a side that has seen the other one closed or gone. -/
structure Guarded (future : AwaitOnBackground) : Prop where
  unspawned : future.background = .unspawned ↔ future.awaiting = .unpolled ∨
    future.awaiting = .left ∧ future.background.isDropped = false
  polled : future.background ≠ .unspawned → future.background ≠ .scheduled →
    future.polled = true
  done : future.done = true ↔
    future.background.isNotifying = true ∨ future.background.isDropped = true
  cancelled : future.cancelled = true → future.polled = true ∧ future.background ≠ .idle
  leaving : future.awaiting = .leaving →
    future.cancelled = true ∨ future.background.isDropped = true
  waiting : future.awaiting = .waiting →
    future.cancelled = true ∧ future.background.isDropped = false
  woken : future.awaiting = .woken → future.background.isDropped = true
  within : future.within = false

theorem guarded_new : new.Guarded where
  unspawned := iff_of_true rfl (Or.inl rfl)
  polled spawned := absurd rfl spawned
  done := iff_of_false Bool.false_ne_true (by rintro (notifying | dropped) <;> contradiction)
  cancelled closed := absurd closed Bool.false_ne_true
  leaving leaves := by cases leaves
  waiting waits := by cases waits
  woken wakes := by cases wakes
  within := rfl

variable {self next : AwaitOnBackground}

/-- The spawned future goes on without having set the flag. -/
theorem Guarded.move (guarded : self.Guarded) (live : self.background.isLive = true)
    {background : BackgroundState} (stays : background.isLive = true) {polled cancelled : Bool}
    (isPolled : background ≠ .scheduled → polled = true)
    (isCancelled : cancelled = true → polled = true ∧ background ≠ .idle)
    (closed : self.cancelled = true → cancelled = true) :
    ({ self with background, polled, cancelled } : AwaitOnBackground).Guarded where
  unspawned := by
    apply iff_of_false (BackgroundState.ne_unspawned_of_isLive stays)
    have spawned := BackgroundState.ne_unspawned_of_isLive live
    rintro (unpolled | ⟨left, _⟩)
    · exact spawned (guarded.unspawned.mpr (Or.inl unpolled))
    · have undropped := BackgroundState.not_isDropped_of_isLive live
      exact spawned (guarded.unspawned.mpr (Or.inr ⟨left, undropped⟩))
  polled _ := isPolled
  done := by
    apply iff_of_false
    · rw [guarded.done, BackgroundState.not_isNotifying_of_isLive live,
        BackgroundState.not_isDropped_of_isLive live]
      simp
    · rw [BackgroundState.not_isNotifying_of_isLive stays,
        BackgroundState.not_isDropped_of_isLive stays]
      simp
  cancelled := isCancelled
  leaving leaves := by
    rcases guarded.leaving leaves with alreadyClosed | dropped
    · exact Or.inl (closed alreadyClosed)
    · cases dropped.symm.trans (BackgroundState.not_isDropped_of_isLive live)
  waiting waits :=
    ⟨closed (guarded.waiting waits).1, BackgroundState.not_isDropped_of_isLive stays⟩
  woken wakes := by
    cases (guarded.woken wakes).symm.trans (BackgroundState.not_isDropped_of_isLive live)
  within := guarded.within

theorem Guarded.setDone (guarded : self.Guarded) {completed : Bool}
    (setting : self.background = .settingDone completed) :
    ({ self with background := .notifying completed, done := true } :
      AwaitOnBackground).Guarded where
  unspawned := by
    have spawned : self.background ≠ .unspawned := by
      rw [setting]
      exact BackgroundState.noConfusion
    apply iff_of_false BackgroundState.noConfusion
    rintro (unpolled | ⟨left, _⟩)
    · exact spawned (guarded.unspawned.mpr (Or.inl unpolled))
    · apply spawned
      apply guarded.unspawned.mpr
      rw [setting]
      exact Or.inr ⟨left, rfl⟩
  polled _ _ := by
    apply guarded.polled <;> rw [setting] <;> exact BackgroundState.noConfusion
  done := iff_of_true rfl (Or.inl rfl)
  cancelled closed := ⟨(guarded.cancelled closed).1, BackgroundState.noConfusion⟩
  leaving leaves := by
    rcases guarded.leaving leaves with closed | dropped
    · exact Or.inl closed
    · rw [setting] at dropped
      cases dropped
  waiting waits := ⟨(guarded.waiting waits).1, rfl⟩
  woken wakes := by
    have dropped := guarded.woken wakes
    rw [setting] at dropped
    cases dropped
  within := guarded.within

theorem Guarded.notifyAll (guarded : self.Guarded) {completed : Bool}
    (notifying : self.background = .notifying completed) :
    ({ self with
      background := .dropped completed
      awaiting := if self.awaiting = .waiting then .woken else self.awaiting } :
      AwaitOnBackground).Guarded where
  unspawned := by
    apply iff_of_false BackgroundState.noConfusion
    rintro (unpolled | ⟨_, undropped⟩)
    · split at unpolled
      · cases unpolled
      · have unspawned := guarded.unspawned.mpr (Or.inl unpolled)
        rw [notifying] at unspawned
        cases unspawned
    · cases undropped
  polled _ _ := by
    apply guarded.polled <;> rw [notifying] <;> exact BackgroundState.noConfusion
  done := by
    apply iff_of_true _ (Or.inr rfl)
    apply guarded.done.mpr
    rw [notifying]
    exact Or.inl rfl
  cancelled closed := ⟨(guarded.cancelled closed).1, BackgroundState.noConfusion⟩
  leaving _ := Or.inr rfl
  waiting waits := by
    split at waits
    · cases waits
    · contradiction
  woken _ := rfl
  within := guarded.within

theorem Guarded.polled_of_isRunning (guarded : self.Guarded)
    (running : self.background.isRunning = true) : self.polled = true := by
  apply guarded.polled
  · intro unspawned
    rw [unspawned] at running
    cases running
  · intro scheduled
    rw [scheduled] at running
    cases running

theorem Guarded.stepBackground (guarded : self.Guarded) {event : AwaitEvent}
    (may : self.Orderly event) (steps : self.stepBackground event = some next) :
    next.Guarded := by
  cases event with
  | run =>
      rcases Option.ite_none_right_eq_some.mp steps with ⟨scheduled, ran⟩
      have live : self.background.isLive = true := by
        rw [scheduled]
        rfl
      by_cases closed : self.cancelled = true
      · rw [if_pos closed] at ran
        rcases Option.some.inj ran with rfl
        have polled := (guarded.cancelled closed).1
        exact guarded.move live rfl (fun _ => polled)
          (fun _ => ⟨polled, BackgroundState.noConfusion⟩) id
      · rw [if_neg closed] at ran
        rcases Option.some.inj ran with rfl
        exact guarded.move live rfl (fun _ => rfl)
          (fun isClosed => absurd isClosed closed) id
  | dropRunnable =>
      rcases Option.ite_none_right_eq_some.mp steps with ⟨scheduled, ⟨⟩⟩
      apply guarded.move _ rfl (fun _ => may) (fun _ => ⟨may, BackgroundState.noConfusion⟩)
        (fun _ => rfl)
      rw [scheduled]
      rfl
  | pollPending =>
      rcases Option.ite_none_right_eq_some.mp steps with ⟨polling, ⟨⟩⟩
      have live : self.background.isLive = true := by
        rw [polling]
        rfl
      have polled : self.polled = true := by
        apply guarded.polled_of_isRunning
        rw [polling]
        rfl
      by_cases closed : self.cancelled = true
      · rw [if_pos closed]
        exact guarded.move live rfl (fun _ => polled)
          (fun _ => ⟨polled, BackgroundState.noConfusion⟩) id
      · rw [if_neg closed]
        exact guarded.move live rfl (fun _ => polled)
          (fun isClosed => absurd isClosed closed) id
  | pollReady =>
      rcases Option.ite_none_right_eq_some.mp steps with ⟨polling, ⟨⟩⟩
      have polled : self.polled = true := by
        apply guarded.polled_of_isRunning
        rw [polling]
        rfl
      apply guarded.move _ rfl (fun _ => polled)
        (fun _ => ⟨polled, BackgroundState.noConfusion⟩) id
      rw [polling]
      rfl
  | pollPanics =>
      rcases Option.ite_none_right_eq_some.mp steps with ⟨polling, ⟨⟩⟩
      have polled : self.polled = true := by
        apply guarded.polled_of_isRunning
        rw [polling]
        rfl
      apply guarded.move _ rfl (fun _ => polled)
        (fun _ => ⟨polled, BackgroundState.noConfusion⟩) id
      rw [polling]
      rfl
  | wake =>
      rcases Option.ite_none_right_eq_some.mp steps with ⟨idle, ⟨⟩⟩
      have unclosed : ¬ self.cancelled = true := fun closed => (guarded.cancelled closed).2 idle
      apply guarded.move _ rfl (fun awake => absurd rfl awake)
        (fun closed => absurd closed unclosed) id
      rw [idle]
      rfl
  | dropFuture =>
      rw [AwaitOnBackground.stepBackground] at steps
      split at steps
      next completed dropping =>
        have polled : self.polled = true := by
          apply guarded.polled_of_isRunning
          rw [dropping]
          rfl
        rcases Option.some.inj steps with rfl
        rw [if_pos polled]
        apply guarded.move _ rfl (fun _ => polled)
          (fun _ => ⟨polled, BackgroundState.noConfusion⟩) id
        rw [dropping]
        rfl
      next => cases steps
  | setDone =>
      rw [AwaitOnBackground.stepBackground] at steps
      split at steps
      next completed setting =>
        rcases Option.some.inj steps with rfl
        exact guarded.setDone setting
      next => cases steps
  | notifyAll =>
      rw [AwaitOnBackground.stepBackground] at steps
      split at steps
      next completed notifying =>
        rcases Option.some.inj steps with rfl
        exact guarded.notifyAll notifying
      next => cases steps
  | poll => cases steps
  | drop within => cases steps
  | lockWait => cases steps
  | wakeUp => cases steps

theorem Guarded.spawned (guarded : self.Guarded) (polled : self.awaiting ≠ .unpolled)
    (stays : self.awaiting ≠ .left) : self.background ≠ .unspawned := by
  rw [Ne, guarded.unspawned]
  rintro (unpolled | ⟨left, _⟩)
  · exact polled unpolled
  · exact stays left

/-- The awaiting future goes on, or goes. -/
theorem Guarded.setAwaiting (guarded : self.Guarded) (spawned : self.background ≠ .unspawned)
    {side : AwaitingState} (polled : side ≠ .unpolled)
    (left : side = .left → self.background.isDropped = true)
    (leaving : side = .leaving →
      self.cancelled = true ∨ self.background.isDropped = true)
    (waiting : side = .waiting →
      self.cancelled = true ∧ self.background.isDropped = false)
    (woken : side = .woken → self.background.isDropped = true) :
    ({ self with awaiting := side } : AwaitOnBackground).Guarded where
  unspawned := by
    apply iff_of_false spawned
    rintro (unpolled | ⟨isLeft, undropped⟩)
    · exact polled unpolled
    · cases (left isLeft).symm.trans undropped
  polled := guarded.polled
  done := guarded.done
  cancelled := guarded.cancelled
  leaving := leaving
  waiting := waiting
  woken := woken
  within := guarded.within

/-- The task is closed, and the wait guard is next. -/
theorem Guarded.cancel (guarded : self.Guarded) (awaiting : self.awaiting = .awaiting)
    (polled : self.polled = true) :
    ({ self.cancel with awaiting := .leaving, within := false } : AwaitOnBackground).Guarded := by
  have spawned := guarded.spawned (by rw [awaiting]; exact AwaitingState.noConfusion)
    (by rw [awaiting]; exact AwaitingState.noConfusion)
  rw [AwaitOnBackground.cancel]
  by_cases idle : self.background = .idle
  · rw [if_pos idle]
    constructor
    · apply iff_of_false BackgroundState.noConfusion
      rintro (unpolled | ⟨left, _⟩) <;> contradiction
    · exact fun _ _ => polled
    · have undone := guarded.done
      rw [idle] at undone
      exact undone
    · exact fun _ => ⟨polled, BackgroundState.noConfusion⟩
    · exact fun _ => Or.inl rfl
    · exact AwaitingState.noConfusion
    · exact AwaitingState.noConfusion
    · rfl
  · rw [if_neg idle]
    constructor
    · apply iff_of_false spawned
      rintro (unpolled | ⟨left, _⟩) <;> contradiction
    · exact fun _ _ => polled
    · exact guarded.done
    · exact fun _ => ⟨polled, idle⟩
    · exact fun _ => Or.inl rfl
    · exact AwaitingState.noConfusion
    · exact AwaitingState.noConfusion
    · rfl

theorem Guarded.poll (guarded : self.Guarded) (steps : self.stepAwaiting .poll = some next) :
    next.Guarded := by
  cases awaiting : self.awaiting with
  | unpolled =>
      rw [stepAwaiting, awaiting] at steps
      rcases Option.some.inj steps with rfl
      have unspawned := guarded.unspawned.mpr (Or.inl awaiting)
      constructor
      · apply iff_of_false BackgroundState.noConfusion
        rintro (unpolled | ⟨left, _⟩) <;> contradiction
      · exact fun _ unscheduled => absurd rfl unscheduled
      · have undone := guarded.done
        rw [unspawned] at undone
        exact undone
      · exact fun closed => ⟨(guarded.cancelled closed).1, BackgroundState.noConfusion⟩
      · intro leaves
        cases leaves
      · intro waits
        cases waits
      · intro wakes
        cases wakes
      · exact guarded.within
  | awaiting =>
      rw [stepAwaiting, awaiting] at steps
      by_cases dropped : self.background.isDropped = true
      · simp only [if_pos dropped] at steps
        rcases Option.some.inj steps with rfl
        have spawned := guarded.spawned (by rw [awaiting]; exact AwaitingState.noConfusion)
          (by rw [awaiting]; exact AwaitingState.noConfusion)
        exact guarded.setAwaiting spawned AwaitingState.noConfusion AwaitingState.noConfusion
          (fun _ => Or.inr dropped) AwaitingState.noConfusion AwaitingState.noConfusion
      · simp only [if_neg dropped] at steps
        rcases Option.some.inj steps with rfl
        exact guarded
  | _ =>
      rw [stepAwaiting, awaiting] at steps
      cases steps

theorem Guarded.drop (guarded : self.Guarded) {within : Bool} (may : self.Orderly (.drop within))
    (steps : self.stepAwaiting (.drop within) = some next) : next.Guarded := by
  cases awaiting : self.awaiting with
  | unpolled =>
      rw [stepAwaiting, awaiting] at steps
      rcases Option.some.inj steps with rfl
      have unspawned := guarded.unspawned.mpr (Or.inl awaiting)
      constructor
      · apply iff_of_true unspawned
        rw [unspawned]
        exact Or.inr ⟨rfl, rfl⟩
      · exact guarded.polled
      · exact guarded.done
      · exact guarded.cancelled
      · intro leaves
        cases leaves
      · intro waits
        cases waits
      · intro wakes
        cases wakes
      · exact guarded.within
  | awaiting =>
      rw [stepAwaiting, awaiting] at steps
      rcases may with ⟨rfl, polled⟩
      simp only [Bool.false_eq_true, false_and, if_false] at steps
      rcases Option.some.inj steps with rfl
      exact guarded.cancel awaiting (polled awaiting)
  | _ =>
      rw [stepAwaiting, awaiting] at steps
      cases steps

theorem Guarded.lockWait (guarded : self.Guarded) (may : self.background.isNotifying = false)
    (leaves : self.awaiting = .leaving) :
    ({ self with awaiting := if self.done then .left else .waiting } :
      AwaitOnBackground).Guarded := by
  have spawned := guarded.spawned (by rw [leaves]; exact AwaitingState.noConfusion)
    (by rw [leaves]; exact AwaitingState.noConfusion)
  by_cases done : self.done = true
  · rw [if_pos done]
    have dropped : self.background.isDropped = true := by
      rcases guarded.done.mp done with notifying | dropped
      · cases notifying.symm.trans may
      · exact dropped
    exact guarded.setAwaiting spawned AwaitingState.noConfusion (fun _ => dropped)
      AwaitingState.noConfusion AwaitingState.noConfusion AwaitingState.noConfusion
  · rw [if_neg done]
    have undropped : ¬ self.background.isDropped = true := fun dropped =>
      done (guarded.done.mpr (Or.inr dropped))
    have closed : self.cancelled = true := (guarded.leaving leaves).resolve_right undropped
    exact guarded.setAwaiting spawned AwaitingState.noConfusion AwaitingState.noConfusion
      AwaitingState.noConfusion (fun _ => ⟨closed, Bool.eq_false_iff.mpr undropped⟩)
      AwaitingState.noConfusion

theorem Guarded.wakeUp (guarded : self.Guarded) (wakes : self.awaiting = .woken) :
    ({ self with awaiting := .left } : AwaitOnBackground).Guarded := by
  have spawned := guarded.spawned (by rw [wakes]; exact AwaitingState.noConfusion)
    (by rw [wakes]; exact AwaitingState.noConfusion)
  exact guarded.setAwaiting spawned AwaitingState.noConfusion (fun _ => guarded.woken wakes)
    AwaitingState.noConfusion AwaitingState.noConfusion AwaitingState.noConfusion

theorem Guarded.stepAwaiting (guarded : self.Guarded) {event : AwaitEvent}
    (may : self.Orderly event) (steps : self.stepAwaiting event = some next) : next.Guarded := by
  cases event with
  | poll => exact guarded.poll steps
  | drop within => exact guarded.drop may steps
  | lockWait =>
      rcases Option.ite_none_right_eq_some.mp steps with ⟨leaves, ⟨⟩⟩
      exact guarded.lockWait may leaves
  | wakeUp =>
      rcases Option.ite_none_right_eq_some.mp steps with ⟨wakes, ⟨⟩⟩
      exact guarded.wakeUp wakes
  | _ => cases steps

theorem Guarded.step (guarded : self.Guarded) {event : AwaitEvent} (may : self.Orderly event)
    (steps : self.step event = some next) : next.Guarded := by
  rw [AwaitOnBackground.step] at steps
  split at steps
  next awaits =>
    rcases Option.some.inj steps with rfl
    exact guarded.stepAwaiting may awaits
  next => exact guarded.stepBackground may (Option.ite_none_left_eq_some.mp steps).2

/-! ## The end of the wait -/

theorem stepAwaiting_waiting (waits : self.awaiting = .waiting) (event : AwaitEvent) :
    self.stepAwaiting event = none := by
  cases event with
  | poll => rw [AwaitOnBackground.stepAwaiting, waits]
  | drop within => rw [AwaitOnBackground.stepAwaiting, waits]
  | lockWait =>
      rw [AwaitOnBackground.stepAwaiting, if_neg]
      rw [waits]
      exact AwaitingState.noConfusion
  | wakeUp =>
      rw [AwaitOnBackground.stepAwaiting, if_neg]
      rw [waits]
      exact AwaitingState.noConfusion
  | _ => rfl

/-- A closed future only gets nearer to its end. -/
theorem stepsLeft_stepBackground (closed : self.cancelled = true) {event : AwaitEvent}
    (steps : self.stepBackground event = some next) :
    next.background.stepsLeft < self.background.stepsLeft := by
  cases event with
  | run =>
      rcases Option.ite_none_right_eq_some.mp steps with ⟨scheduled, ran⟩
      rw [if_pos closed] at ran
      rcases Option.some.inj ran with rfl
      rw [scheduled]
      simp only [BackgroundState.stepsLeft, Nat.reduceLT]
  | pollPending =>
      rcases Option.ite_none_right_eq_some.mp steps with ⟨polling, ⟨⟩⟩
      rw [if_pos closed, polling]
      simp only [BackgroundState.stepsLeft, Nat.reduceLT]
  | dropRunnable =>
      rcases Option.ite_none_right_eq_some.mp steps with ⟨scheduled, ⟨⟩⟩
      rw [scheduled]
      simp only [BackgroundState.stepsLeft, Nat.reduceLT]
  | pollReady =>
      rcases Option.ite_none_right_eq_some.mp steps with ⟨polling, ⟨⟩⟩
      rw [polling]
      exact Nat.lt_succ_self _
  | pollPanics =>
      rcases Option.ite_none_right_eq_some.mp steps with ⟨polling, ⟨⟩⟩
      rw [polling]
      exact Nat.lt_succ_self _
  | wake =>
      rcases Option.ite_none_right_eq_some.mp steps with ⟨idle, ⟨⟩⟩
      rw [idle]
      exact Nat.lt_succ_self _
  | dropFuture =>
      rw [AwaitOnBackground.stepBackground] at steps
      split at steps
      next completed dropping =>
        rcases Option.some.inj steps with rfl
        rw [dropping]
        cases self.polled <;> simp [BackgroundState.stepsLeft]
      next => cases steps
  | setDone =>
      rw [AwaitOnBackground.stepBackground] at steps
      split at steps
      next completed setting =>
        rcases Option.some.inj steps with rfl
        rw [setting]
        exact Nat.lt_succ_self _
      next => cases steps
  | notifyAll =>
      rw [AwaitOnBackground.stepBackground] at steps
      split at steps
      next completed notifying =>
        rcases Option.some.inj steps with rfl
        rw [notifying]
        exact Nat.lt_succ_self _
      next => cases steps
  | _ => cases steps

theorem exists_stepBackground (spawned : self.background ≠ .unspawned)
    (undropped : self.background.isDropped = false) :
    ∃ event next, self.stepBackground event = some next := by
  cases state : self.background with
  | unspawned => exact absurd state spawned
  | scheduled => exact ⟨.dropRunnable, _, if_pos state⟩
  | polling => exact ⟨.pollReady, _, if_pos state⟩
  | idle => exact ⟨.wake, _, if_pos state⟩
  | dropping completed =>
      refine ⟨.dropFuture, { self with
        background := if self.polled then .settingDone completed else .dropped completed }, ?_⟩
      rw [AwaitOnBackground.stepBackground, state]
  | settingDone completed =>
      refine ⟨.setDone, { self with background := .notifying completed, done := true }, ?_⟩
      rw [AwaitOnBackground.stepBackground, state]
  | notifying completed =>
      refine ⟨.notifyAll, { self with
        background := .dropped completed
        awaiting := if self.awaiting = .waiting then .woken else self.awaiting }, ?_⟩
      rw [AwaitOnBackground.stepBackground, state]
  | dropped completed =>
      rw [state] at undropped
      cases undropped

theorem Guarded.awaited (guarded : self.Guarded) : self.Awaited where
  done dropped := guarded.done.mpr (Or.inr dropped)
  left isLeft := by
    by_cases dropped : self.background.isDropped = true
    · exact Or.inr dropped
    · exact Or.inl (guarded.unspawned.mpr (Or.inr ⟨isLeft, Bool.eq_false_iff.mpr dropped⟩))
  enabled waits := by
    have spawned := guarded.spawned (by rw [waits]; exact AwaitingState.noConfusion)
      (by rw [waits]; exact AwaitingState.noConfusion)
    rcases exists_stepBackground spawned (guarded.waiting waits).2 with ⟨event, next, steps⟩
    refine ⟨event, next, ?_⟩
    rw [AwaitOnBackground.step, stepAwaiting_waiting waits, guarded.within]
    exact steps
  bounded waits event next steps := by
    rw [AwaitOnBackground.step, stepAwaiting_waiting waits, guarded.within] at steps
    exact stepsLeft_stepBackground (guarded.waiting waits).1 steps

/-- The awaiting side waits as long as the spawned future is there, and no longer. -/
theorem run_awaited {events : List AwaitEvent} (run : Run step Orderly new events self) :
    self.Awaited := by
  apply Guarded.awaited
  apply run.invariant fun _ => Guarded
  · exact guarded_new
  · exact fun guarded may steps => guarded.step may steps

/-- The awaiting future is dropped while the spawned one is polled. -/
theorem run_awaited_dropped :
    Awaited
      { background := .dropped true, awaiting := .left, cancelled := true, polled := true,
        done := true, within := false } := by
  have run : Run step Orderly new
      [.poll, .run, .drop false, .lockWait, .pollReady, .dropFuture, .setDone, .notifyAll, .wakeUp]
      { background := .dropped true, awaiting := .left, cancelled := true, polled := true,
        done := true, within := false } := by
    apply Run.cons ⟨⟩ rfl
    apply Run.cons ⟨⟩ rfl
    apply Run.cons ⟨rfl, fun _ => rfl⟩ rfl
    apply Run.cons (by exact rfl) rfl
    apply Run.cons ⟨⟩ rfl
    apply Run.cons ⟨⟩ rfl
    apply Run.cons ⟨⟩ rfl
    apply Run.cons ⟨⟩ rfl
    apply Run.cons ⟨⟩ rfl
    exact .nil
  exact run_awaited run

/-- Dropped before the spawned future is polled, the awaiting future waits for good. -/
theorem not_run_awaited :
    ¬ ∀ (future : AwaitOnBackground) (events : List AwaitEvent),
      Run step (fun _ _ => True) new events future → future.Awaited := by
  intro awaited
  have waits := awaited
    { background := .dropped false, awaiting := .waiting, cancelled := true, polled := false,
      done := false, within := false }
    [.poll, .drop false, .run, .dropFuture, .lockWait] (Run.of_foldlM rfl)
  cases waits.done rfl

end AwaitOnBackground

end Gpui
