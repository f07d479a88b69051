import Gpui.Library.Transition

/-!
# Scoped tasks

The future that `scoped` or `scoped_priority` makes (they differ in the priority only), and
the futures that its scheduler spawns.  A spawned future is an async block that owns the
given future and, after it, a sender of the scope's channel; what its task does is that of
`async_task`.  A step is what one thread does between two moments at which another could
notice.

The lifetimes of the spawned futures rest on the wait in the drop of the scope.  That wait
is never in vain, unless the scheduler panics over futures that nobody has been given yet.
-/

namespace Gpui

open Library

/-- Where the async block of a spawned future is.  A closed task has been cancelled. -/
inductive FutureStatus where
  /-- Owned by the scope or by the iterator over what it held. -/
  | boxed
  /-- Its runnable is with the executor. -/
  | scheduled (closed : Bool)
  /-- A thread of the executor polls or drops it. -/
  | running (closed : Bool)
  /-- It waits to be woken. -/
  | idle
  /-- The given future has been dropped, and the sender has not. -/
  | dropped (completed : Bool)
  | gone (completed : Bool)
deriving DecidableEq, Repr

/-- What a thread of the executor does to a future that it has. -/
inductive FutureEvent where
  | run
  | pollPending
  /-- The given future is ready, and dropped. -/
  | complete
  /-- The given future is dropped: its task is closed, its poll panics, or the executor
  drops the runnable. -/
  | dropFuture
  | dropSender
deriving DecidableEq, Repr

namespace FutureStatus

def perform : FutureStatus → FutureEvent → Option FutureStatus
  | .scheduled closed, .run => some (.running closed)
  | .running false, .pollPending => some .idle
  | .running _, .complete => some (.dropped true)
  | .running _, .dropFuture => some (.dropped false)
  | .dropped completed, .dropSender => some (.gone completed)
  | _, _ => none

/-- `Task::drop` closes the task.  A future that waits is scheduled once more, to be dropped. -/
def cancel : FutureStatus → FutureStatus
  | .scheduled _ => .scheduled true
  | .running _ => .running true
  | .idle => .scheduled true
  | status => status

def dropBoxed : FutureStatus → FutureStatus
  | .boxed => .gone false
  | status => status

def holdsSender : FutureStatus → Bool
  | .gone _ => false
  | _ => true

/-- The given future has not been dropped. -/
def alive : FutureStatus → Bool
  | .dropped _ => false
  | .gone _ => false
  | _ => true

/-- The executor is left with nothing but to drop it. -/
def released : FutureStatus → Bool
  | .scheduled closed => closed
  | .running closed => closed
  | .dropped _ => true
  | .gone _ => true
  | _ => false

theorem alive_of_not_holdsSender {status : FutureStatus} (without : status.holdsSender = false) :
    status.alive = false := by
  cases status with
  | gone completed => rfl
  | _ => cases without

theorem released_cancel {status : FutureStatus} (handedOver : status ≠ .boxed) :
    status.cancel.released = true := by
  cases status with
  | boxed => exact absurd rfl handedOver
  | _ => rfl

theorem cancel_ne_boxed {status : FutureStatus} (handedOver : status ≠ .boxed) :
    status.cancel ≠ .boxed := by
  cases status with
  | boxed => exact absurd rfl handedOver
  | _ =>
      intro same
      cases same

/-- The executor has no future that nobody has handed to it. -/
theorem perform_boxed (event : FutureEvent) : FutureStatus.boxed.perform event = none := by
  cases event <;> rfl

theorem perform_cases {before after : FutureStatus} {event : FutureEvent}
    (performs : before.perform event = some after) :
    (∃ closed, before = .scheduled closed ∧ after = .running closed) ∨
      (before = .running false ∧ after = .idle) ∨
      (∃ closed completed, before = .running closed ∧ after = .dropped completed) ∨
      ∃ completed, before = .dropped completed ∧ after = .gone completed := by
  unfold perform at performs
  split at performs
  next closed => exact Or.inl ⟨closed, rfl, (Option.some.inj performs).symm⟩
  next => exact Or.inr (Or.inl ⟨rfl, (Option.some.inj performs).symm⟩)
  next closed => exact Or.inr (Or.inr (Or.inl ⟨closed, true, rfl, (Option.some.inj performs).symm⟩))
  next closed => exact Or.inr (Or.inr (Or.inl ⟨closed, false, rfl, (Option.some.inj performs).symm⟩))
  next completed => exact Or.inr (Or.inr (Or.inr ⟨completed, rfl, (Option.some.inj performs).symm⟩))
  next => cases performs

theorem perform_ne_boxed {before after : FutureStatus} {event : FutureEvent}
    (performs : before.perform event = some after) : after ≠ .boxed := by
  rcases perform_cases performs with
    ⟨_, _, rfl⟩ | ⟨_, rfl⟩ | ⟨_, _, _, rfl⟩ | ⟨_, _, rfl⟩ <;>
  intro same <;> cases same

theorem holdsSender_of_perform {before after : FutureStatus} {event : FutureEvent}
    (performs : before.perform event = some after) : before.holdsSender = true := by
  rcases perform_cases performs with
    ⟨_, rfl, _⟩ | ⟨rfl, _⟩ | ⟨_, _, rfl, _⟩ | ⟨_, rfl, _⟩ <;>
  rfl

/-- What the executor has been left with it is left with until it is gone. -/
theorem released_perform {before after : FutureStatus} {event : FutureEvent}
    (released : before.released = true) (performs : before.perform event = some after) :
    after.released = true := by
  rcases perform_cases performs with
    ⟨_, rfl, rfl⟩ | ⟨rfl, rfl⟩ | ⟨_, _, rfl, rfl⟩ | ⟨_, rfl, rfl⟩
  · exact released
  · cases released
  · rfl
  · rfl

theorem exists_perform {status : FutureStatus} (released : status.released = true)
    (holds : status.holdsSender = true) :
    ∃ event after, status.perform event = some after := by
  cases status with
  | boxed => cases released
  | scheduled closed => exact ⟨.run, _, rfl⟩
  | running closed => exact ⟨.dropFuture, _, by cases closed <;> rfl⟩
  | idle => cases released
  | dropped completed => exact ⟨.dropSender, _, rfl⟩
  | gone completed => cases holds

end FutureStatus

/-- Where the scoped future is. -/
inductive ScopedPc where
  | unpolled
  | scheduling
  /-- Handing the spawned futures over; so many are. -/
  | collecting (handed : Nat)
  | awaiting (task : Nat)
  /-- Dropping the tasks from this one on. -/
  | cancelling (task : Nat)
  /-- At the start of `Scope::drop`. -/
  | takingSender
  | waiting
  | finished
deriving DecidableEq, Repr

structure ScopedFuture where
  pc : ScopedPc
  /-- The futures in the order in which they were spawned. -/
  futures : List FutureStatus
  /-- Whether the scope has its own sender. -/
  tx : Bool
  /-- The spawned future, if it is one, from within which the scoped future is dropped. -/
  within : Option Nat
deriving DecidableEq, Repr

inductive ScopedEvent where
  /-- The first poll. -/
  | poll
  | spawn
  | schedulerReturns
  | schedulerPanics
  /-- `spawn_with_priority` of the next future. -/
  | handOver
  | collected
  /-- The next task is awaited. -/
  | ready
  | awaited
  /-- The task that is awaited is closed, and polling it panics. -/
  | awaitPanics (within : Option Nat)
  | drop (within : Option Nat)
  /-- The next task is dropped. -/
  | cancel
  | cancelled
  | takeSender
  | channelClosed
  | woken (index : Nat)
  | executor (index : Nat) (event : FutureEvent)
deriving DecidableEq, Repr

namespace ScopedFuture

def new : ScopedFuture where
  pc := .unpolled
  futures := []
  tx := false
  within := none

/-- Code of this spawned future runs, which may poll or drop the scoped future. -/
def mayActWithin (self : ScopedFuture) : Option Nat → Bool
  | none => true
  | some index =>
      match self.futures[index]? with
      | some (.running _) => true
      | _ => false

/-- Some sender of the channel has not been dropped. -/
def senderHeld (self : ScopedFuture) : Bool :=
  self.tx || self.futures.any FutureStatus.holdsSender

def set (self : ScopedFuture) (index : Nat) (status : FutureStatus) : ScopedFuture :=
  { self with futures := self.futures.set index status }

def step (self : ScopedFuture) : ScopedEvent → Option ScopedFuture
  | .poll =>
      if self.pc = .unpolled then some { self with pc := .scheduling, tx := true } else none
  | .spawn =>
      if self.pc = .scheduling ∧ self.tx then
        some { self with futures := self.futures ++ [.boxed] }
      else none
  | .schedulerReturns =>
      if self.pc = .scheduling then some { self with pc := .collecting 0 } else none
  | .schedulerPanics =>
      if self.pc = .scheduling then some { self with pc := .takingSender } else none
  | .handOver =>
      match self.pc with
      | .collecting handed =>
          if self.futures[handed]? = some .boxed then
            some { self.set handed (.scheduled false) with pc := .collecting (handed + 1) }
          else none
      | _ => none
  | .collected =>
      if self.pc = .collecting self.futures.length then some { self with pc := .awaiting 0 }
      else none
  | .ready =>
      match self.pc with
      | .awaiting task =>
          if self.futures[task]? = some (.gone true) then
            some { self with pc := .awaiting (task + 1) }
          else none
      | _ => none
  | .awaited =>
      if self.pc = .awaiting self.futures.length then some { self with pc := .takingSender }
      else none
  | .awaitPanics within =>
      match self.pc with
      | .awaiting task =>
          if self.futures[task]? = some (.gone false) ∧ self.mayActWithin within then
            some { self with pc := .cancelling task, within }
          else none
      | _ => none
  | .drop within =>
      match self.pc with
      | .unpolled => some { self with pc := .finished }
      | .awaiting task =>
          -- The task that is awaited is dropped first, then those the iterator has left.
          if task < self.futures.length ∧ self.mayActWithin within then
            some { self with pc := .cancelling task, within }
          else none
      | _ => none
  | .cancel =>
      match self.pc with
      | .cancelling task => do
          let status ← self.futures[task]?
          return { self.set task status.cancel with pc := .cancelling (task + 1) }
      | _ => none
  | .cancelled =>
      if self.pc = .cancelling self.futures.length then some { self with pc := .takingSender }
      else none
  | .takeSender =>
      if self.pc = .takingSender then some { self with pc := .waiting, tx := false } else none
  | .channelClosed =>
      if self.pc = .waiting ∧ self.senderHeld = false then
        -- The fields of the scope are dropped when its `drop` has returned.
        some { self with
          pc := .finished, futures := self.futures.map FutureStatus.dropBoxed, within := none }
      else none
  | .woken index =>
      if self.futures[index]? = some .idle then some (self.set index (.scheduled false)) else none
  | .executor index event =>
      if self.within = some index then none
      else do
        let status ← self.futures[index]?
        let status ← status.perform event
        return self.set index status

/-- No spawned future outlives the scoped future, and a scope that waits for its channel to
close leaves it to somebody else to close it. -/
structure Contained (future : ScopedFuture) : Prop where
  finished : future.pc = .finished → ∀ status ∈ future.futures, status.alive = false
  waiting : future.pc = .waiting → future.senderHeld = true →
    ∃ index status event, future.futures[index]? = some status ∧ status.holdsSender = true ∧
      (future.step (.executor index event)).isSome = true

/-- The scheduler does not panic over spawned futures, and the scoped future is not dropped
from within one of them. -/
def Orderly (self : ScopedFuture) : ScopedEvent → Prop
  | .schedulerPanics => self.futures = []
  | .awaitPanics within => within = none
  | .drop within => within = none
  | _ => True

/-! ## What can happen -/

inductive Steps (self : ScopedFuture) : ScopedEvent → ScopedFuture → Prop where
  | poll (atStart : self.pc = .unpolled) :
      Steps self .poll { self with pc := .scheduling, tx := true }
  | spawn (scheduling : self.pc = .scheduling) :
      Steps self .spawn { self with futures := self.futures ++ [.boxed] }
  | schedulerReturns (scheduling : self.pc = .scheduling) :
      Steps self .schedulerReturns { self with pc := .collecting 0 }
  | schedulerPanics (scheduling : self.pc = .scheduling) :
      Steps self .schedulerPanics { self with pc := .takingSender }
  | handOver {handed : Nat} (collecting : self.pc = .collecting handed)
      (boxed : self.futures[handed]? = some .boxed) :
      Steps self .handOver
        { self.set handed (.scheduled false) with pc := .collecting (handed + 1) }
  | collected (collecting : self.pc = .collecting self.futures.length) :
      Steps self .collected { self with pc := .awaiting 0 }
  | ready {task : Nat} (awaiting : self.pc = .awaiting task)
      (gone : self.futures[task]? = some (.gone true)) :
      Steps self .ready { self with pc := .awaiting (task + 1) }
  | awaited (awaiting : self.pc = .awaiting self.futures.length) :
      Steps self .awaited { self with pc := .takingSender }
  | awaitPanics {task : Nat} {within : Option Nat} (awaiting : self.pc = .awaiting task) :
      Steps self (.awaitPanics within) { self with pc := .cancelling task, within }
  | dropUnpolled {within : Option Nat} (atStart : self.pc = .unpolled) :
      Steps self (.drop within) { self with pc := .finished }
  | dropAwaiting {task : Nat} {within : Option Nat} (awaiting : self.pc = .awaiting task) :
      Steps self (.drop within) { self with pc := .cancelling task, within }
  | cancel {task : Nat} {status : FutureStatus} (cancelling : self.pc = .cancelling task)
      (at_ : self.futures[task]? = some status) :
      Steps self .cancel { self.set task status.cancel with pc := .cancelling (task + 1) }
  | cancelled (cancelling : self.pc = .cancelling self.futures.length) :
      Steps self .cancelled { self with pc := .takingSender }
  | takeSender (taking : self.pc = .takingSender) :
      Steps self .takeSender { self with pc := .waiting, tx := false }
  | channelClosed (waiting : self.pc = .waiting) (closed : self.senderHeld = false) :
      Steps self .channelClosed { self with
        pc := .finished, futures := self.futures.map FutureStatus.dropBoxed, within := none }
  | woken {index : Nat} (waits : self.futures[index]? = some .idle) :
      Steps self (.woken index) (self.set index (.scheduled false))
  | executor {index : Nat} {event : FutureEvent} {old new : FutureStatus}
      (at_ : self.futures[index]? = some old) (performs : old.perform event = some new) :
      Steps self (.executor index event) (self.set index new)

variable {self : ScopedFuture}

theorem Steps.of_step {event : ScopedEvent} {next : ScopedFuture}
    (steps : self.step event = some next) : self.Steps event next := by
  cases event with
  | poll =>
      rcases Option.ite_none_right_eq_some.mp steps with ⟨guard, ⟨⟩⟩
      exact .poll guard
  | spawn =>
      rcases Option.ite_none_right_eq_some.mp steps with ⟨guard, ⟨⟩⟩
      exact .spawn guard.1
  | schedulerReturns =>
      rcases Option.ite_none_right_eq_some.mp steps with ⟨guard, ⟨⟩⟩
      exact .schedulerReturns guard
  | schedulerPanics =>
      rcases Option.ite_none_right_eq_some.mp steps with ⟨guard, ⟨⟩⟩
      exact .schedulerPanics guard
  | handOver =>
      cases collecting : self.pc with
      | collecting handed =>
          rw [step, collecting] at steps
          rcases Option.ite_none_right_eq_some.mp steps with ⟨guard, ⟨⟩⟩
          exact .handOver collecting guard
      | _ =>
          rw [step, collecting] at steps
          cases steps
  | collected =>
      rcases Option.ite_none_right_eq_some.mp steps with ⟨guard, ⟨⟩⟩
      exact .collected guard
  | ready =>
      cases awaiting : self.pc with
      | awaiting task =>
          rw [step, awaiting] at steps
          rcases Option.ite_none_right_eq_some.mp steps with ⟨guard, ⟨⟩⟩
          exact .ready awaiting guard
      | _ =>
          rw [step, awaiting] at steps
          cases steps
  | awaited =>
      rcases Option.ite_none_right_eq_some.mp steps with ⟨guard, ⟨⟩⟩
      exact .awaited guard
  | awaitPanics within =>
      cases awaiting : self.pc with
      | awaiting task =>
          rw [step, awaiting] at steps
          rcases Option.ite_none_right_eq_some.mp steps with ⟨guard, ⟨⟩⟩
          exact .awaitPanics awaiting
      | _ =>
          rw [step, awaiting] at steps
          cases steps
  | drop within =>
      cases atPc : self.pc with
      | unpolled =>
          rw [step, atPc] at steps
          rcases Option.some.inj steps with rfl
          exact .dropUnpolled atPc
      | awaiting task =>
          rw [step, atPc] at steps
          rcases Option.ite_none_right_eq_some.mp steps with ⟨_, ⟨⟩⟩
          exact .dropAwaiting atPc
      | _ =>
          rw [step, atPc] at steps
          cases steps
  | cancel =>
      cases cancelling : self.pc with
      | cancelling task =>
          rw [step, cancelling] at steps
          rcases Option.bind_eq_some_iff.mp steps with ⟨status, at_, ⟨⟩⟩
          exact .cancel cancelling at_
      | _ =>
          rw [step, cancelling] at steps
          cases steps
  | cancelled =>
      rcases Option.ite_none_right_eq_some.mp steps with ⟨guard, ⟨⟩⟩
      exact .cancelled guard
  | takeSender =>
      rcases Option.ite_none_right_eq_some.mp steps with ⟨guard, ⟨⟩⟩
      exact .takeSender guard
  | channelClosed =>
      rcases Option.ite_none_right_eq_some.mp steps with ⟨guard, ⟨⟩⟩
      exact .channelClosed guard.1 guard.2
  | woken index =>
      rcases Option.ite_none_right_eq_some.mp steps with ⟨guard, ⟨⟩⟩
      exact .woken guard
  | executor index event =>
      rcases Option.ite_none_left_eq_some.mp steps with ⟨_, steps⟩
      rcases Option.bind_eq_some_iff.mp steps with ⟨old, at_, steps⟩
      rcases Option.bind_eq_some_iff.mp steps with ⟨new, performs, ⟨⟩⟩
      exact .executor at_ performs

/-! ## The first futures -/

/-- This holds of the first so many futures. -/
def Below (self : ScopedFuture) (property : FutureStatus → Prop) (bound : Nat) : Prop :=
  ∀ index status, index < bound → self.futures[index]? = some status → property status

theorem Below.zero (self : ScopedFuture) (property : FutureStatus → Prop) :
    self.Below property 0 := by
  intro index status below
  cases below

theorem Below.succ {property : FutureStatus → Prop} {bound : Nat} {status : FutureStatus}
    (below : self.Below property bound) (at_ : self.futures[bound]? = some status)
    (has : property status) : self.Below property (bound + 1) := by
  intro index other before found
  rcases Nat.lt_succ_iff_lt_or_eq.mp before with before | rfl
  · exact below index other before found
  · rcases Option.some.inj (at_.symm.trans found) with rfl
    exact has

theorem Below.set {property : FutureStatus → Prop} {bound index : Nat} {old new : FutureStatus}
    (below : self.Below property bound) (at_ : self.futures[index]? = some old)
    (keeps : property old → property new) : (self.set index new).Below property bound := by
  intro other status before found
  rw [ScopedFuture.set, List.getElem?_set] at found
  by_cases same : index = other
  · subst same
    rw [if_pos rfl, Option.ite_none_right_eq_some] at found
    rcases Option.some.inj found.2 with rfl
    exact keeps (below index old before at_)
  · rw [if_neg same] at found
    exact below other status before found

/-- The next future gets the property with its new status. -/
theorem Below.set_succ {property : FutureStatus → Prop} {bound : Nat} {old new : FutureStatus}
    (below : self.Below property bound) (at_ : self.futures[bound]? = some old)
    (has : property new) : (self.set bound new).Below property (bound + 1) := by
  have others : (self.set bound new).Below property bound := below.set at_ (fun _ => has)
  apply others.succ _ has
  rw [ScopedFuture.set, List.getElem?_set_self (List.getElem?_eq_some_iff.mp at_).1]

theorem Below.all {property : FutureStatus → Prop}
    (below : self.Below property self.futures.length) :
    ∀ status ∈ self.futures, property status := by
  intro status member
  rcases List.mem_iff_getElem?.mp member with ⟨index, found⟩
  exact below index status (List.getElem?_eq_some_iff.mp found).1 found

theorem Below.of_all {property : FutureStatus → Prop}
    (all : ∀ status ∈ self.futures, property status) (bound : Nat) :
    self.Below property bound :=
  fun _ status _ found => all status (List.mem_of_getElem? found)

@[simp]
theorem set_length (self : ScopedFuture) (index : Nat) (status : FutureStatus) :
    (self.set index status).futures.length = self.futures.length :=
  List.length_set

/-! ## No future is left behind -/

/-- There is nothing before the first poll, and nothing left at the end. -/
structure Owned (future : ScopedFuture) : Prop where
  unpolled : future.pc = .unpolled → future.futures = []
  finished : future.pc = .finished → ∀ status ∈ future.futures, status.holdsSender = false

/-- In between, nothing is said. -/
theorem Owned.between (started : self.pc ≠ .unpolled) (unfinished : self.pc ≠ .finished) :
    self.Owned where
  unpolled atStart := absurd atStart started
  finished atEnd := absurd atEnd unfinished

/-- Only a future that holds its sender changes by itself. -/
theorem Owned.set (owned : self.Owned) {index : Nat} {old new : FutureStatus}
    (at_ : self.futures[index]? = some old) (holds : old.holdsSender = true) :
    (self.set index new).Owned := by
  have member : old ∈ self.futures := List.mem_of_getElem? at_
  apply between
  · intro atStart
    rw [owned.unpolled atStart] at member
    cases member
  · intro atEnd
    cases holds.symm.trans (owned.finished atEnd old member)

theorem not_holdsSender_of_closed (closed : self.senderHeld = false) :
    ∀ status ∈ self.futures, status.holdsSender = false := by
  intro status member
  rw [senderHeld, Bool.or_eq_false_iff, List.any_eq_false] at closed
  exact Bool.eq_false_iff.mpr (closed.2 status member)

/-- When the channel is closed, the scope has nothing left to drop. -/
theorem dropBoxed_of_closed (closed : self.senderHeld = false) :
    self.futures.map FutureStatus.dropBoxed = self.futures := by
  apply (List.map_congr_left _).trans (List.map_id _)
  intro status member
  have without := not_holdsSender_of_closed closed status member
  cases status with
  | boxed => cases without
  | _ => rfl

theorem Owned.step (owned : self.Owned) {event : ScopedEvent} {next : ScopedFuture}
    (steps : self.step event = some next) : next.Owned := by
  cases Steps.of_step steps with
  | dropUnpolled atStart =>
      constructor
      · intro _
        exact owned.unpolled atStart
      · intro _ status member
        rw [owned.unpolled atStart] at member
        cases member
  | channelClosed waiting closed =>
      constructor
      · intro atStart
        cases atStart
      · intro _
        rw [dropBoxed_of_closed closed]
        exact not_holdsSender_of_closed closed
  | spawn scheduling =>
      apply between <;> intro same <;> cases scheduling.symm.trans same
  | woken waits => exact owned.set waits rfl
  | executor at_ performs => exact owned.set at_ (FutureStatus.holdsSender_of_perform performs)
  | _ => apply between <;> intro same <;> cases same

/-! ## Nobody waits in vain -/

/-- How far the futures have been handed over, and how far the executor is left to drop
them. -/
def Settled (self : ScopedFuture) : Prop :=
  match self.pc with
  | .unpolled => True
  | .scheduling => True
  | .collecting handed => self.Below (· ≠ .boxed) handed
  | .awaiting task =>
      self.Below (· ≠ .boxed) self.futures.length ∧ self.Below (·.released = true) task
  | .cancelling task =>
      self.Below (· ≠ .boxed) self.futures.length ∧ self.Below (·.released = true) task
  | .takingSender => self.Below (·.released = true) self.futures.length
  | .waiting => self.Below (·.released = true) self.futures.length
  | .finished => True

/-- A future may change that stays handed over, and stays with the executor if it is left to
it. -/
theorem Settled.set (settled : self.Settled) {index : Nat} {old new : FutureStatus}
    (at_ : self.futures[index]? = some old) (boxed : new ≠ .boxed)
    (released : old.released = true → new.released = true) : (self.set index new).Settled := by
  have handedOver : old ≠ .boxed → new ≠ .boxed := fun _ => boxed
  unfold Settled at settled ⊢
  rw [set_length]
  dsimp only [ScopedFuture.set]
  cases atPc : self.pc with
  | unpolled => trivial
  | scheduling => trivial
  | collecting handed =>
      rw [atPc] at settled
      exact settled.set at_ handedOver
  | awaiting task =>
      rw [atPc] at settled
      exact ⟨settled.1.set at_ handedOver, settled.2.set at_ released⟩
  | cancelling task =>
      rw [atPc] at settled
      exact ⟨settled.1.set at_ handedOver, settled.2.set at_ released⟩
  | takingSender =>
      rw [atPc] at settled
      exact settled.set at_ released
  | waiting =>
      rw [atPc] at settled
      exact settled.set at_ released
  | finished => trivial

theorem Settled.step (settled : self.Settled) {event : ScopedEvent} {next : ScopedFuture}
    (orderly : self.Orderly event) (steps : self.step event = some next) : next.Settled := by
  cases Steps.of_step steps with
  | poll _ => trivial
  | spawn scheduling =>
      unfold Settled
      dsimp only
      rw [scheduling]
      trivial
  | schedulerReturns _ => exact Below.zero self _
  | schedulerPanics _ =>
      have noFutures : self.futures = [] := orderly
      apply Below.of_all
      intro status member
      rw [noFutures] at member
      cases member
  | handOver collecting boxed =>
      rw [Settled, collecting] at settled
      apply Below.set_succ settled boxed
      intro same
      cases same
  | collected collecting =>
      rw [Settled, collecting] at settled
      exact ⟨settled, Below.zero self _⟩
  | ready awaiting gone =>
      rw [Settled, awaiting] at settled
      exact ⟨settled.1, settled.2.succ gone rfl⟩
  | awaited awaiting =>
      rw [Settled, awaiting] at settled
      exact settled.2
  | awaitPanics awaiting =>
      rw [Settled, awaiting] at settled
      exact settled
  | dropUnpolled _ => trivial
  | dropAwaiting awaiting =>
      rw [Settled, awaiting] at settled
      exact settled
  | cancel cancelling at_ =>
      rw [Settled, cancelling] at settled
      rcases settled with ⟨handedOver, released⟩
      constructor
      · rw [set_length]
        exact handedOver.set at_ FutureStatus.cancel_ne_boxed
      · apply released.set_succ at_
        apply FutureStatus.released_cancel
        exact handedOver.all _ (List.mem_of_getElem? at_)
  | cancelled cancelling =>
      rw [Settled, cancelling] at settled
      exact settled.2
  | takeSender taking =>
      rw [Settled, taking] at settled
      exact settled
  | channelClosed _ _ => trivial
  | woken waits =>
      apply settled.set waits
      · intro same
        cases same
      · intro released
        cases released
  | executor at_ performs =>
      apply settled.set at_ (FutureStatus.perform_ne_boxed performs)
      intro released
      exact FutureStatus.released_perform released performs

theorem within_step (outside : self.within = none) {event : ScopedEvent} {next : ScopedFuture}
    (orderly : self.Orderly event) (steps : self.step event = some next) : next.within = none := by
  cases Steps.of_step steps with
  | awaitPanics _ => exact orderly
  | dropAwaiting _ => exact orderly
  | channelClosed _ _ => rfl
  | _ => exact outside

/-- What is left to the executor and has a sender can be dropped by it. -/
theorem exists_executor_step (settled : self.Settled) (outside : self.within = none)
    (waiting : self.pc = .waiting) (noSender : self.tx = false) (held : self.senderHeld = true) :
    ∃ index status event, self.futures[index]? = some status ∧ status.holdsSender = true ∧
      (self.step (.executor index event)).isSome = true := by
  rw [Settled, waiting] at settled
  rw [senderHeld, noSender, Bool.false_or, List.any_eq_true] at held
  rcases held with ⟨status, member, holds⟩
  rcases List.mem_iff_getElem?.mp member with ⟨index, at_⟩
  rcases FutureStatus.exists_perform (settled.all status member) holds with
    ⟨event, after, performs⟩
  refine ⟨index, status, event, at_, holds, ?_⟩
  rw [step, outside, if_neg (Option.some_ne_none index).symm, at_]
  simp [performs]

/-- The wait starts when the scope has dropped its own sender. -/
def SenderTaken (self : ScopedFuture) : Prop :=
  self.pc = .waiting → self.tx = false

theorem SenderTaken.step (taken : self.SenderTaken) {event : ScopedEvent} {next : ScopedFuture}
    (steps : self.step event = some next) : next.SenderTaken := by
  cases Steps.of_step steps with
  | takeSender _ => exact fun _ => rfl
  | spawn scheduling =>
      intro waiting
      cases scheduling.symm.trans waiting
  | woken _ => exact taken
  | executor _ _ => exact taken
  | _ =>
      intro waiting
      cases waiting

/-! ## Runs -/

/-- Whatever happens, no spawned future is alive when the scoped future is finished. -/
theorem run_owned {events : List ScopedEvent} {last : ScopedFuture}
    (run : Run step (fun _ _ => True) new events last) : last.Owned := by
  apply run.invariant (fun _ state => state.Owned)
  · exact ⟨fun _ => rfl, fun atEnd => by cases atEnd⟩
  · intro _ _ _ _ owned _ steps
    exact owned.step steps

theorem run_settled {events : List ScopedEvent} {last : ScopedFuture}
    (run : Run step Orderly new events last) :
    last.Settled ∧ last.SenderTaken ∧ last.within = none := by
  apply run.invariant (fun _ state => state.Settled ∧ state.SenderTaken ∧ state.within = none)
  · refine ⟨trivial, ?_, rfl⟩
    intro waiting
    cases waiting
  · rintro _ _ _ _ ⟨settled, taken, outside⟩ orderly steps
    exact ⟨settled.step orderly steps, taken.step steps, within_step outside orderly steps⟩

/-- Scoped futures that are orderly neither leave a future behind nor wait in vain. -/
theorem run_contained {events : List ScopedEvent} {last : ScopedFuture}
    (run : Run step Orderly new events last) : last.Contained where
  finished atEnd status member :=
    FutureStatus.alive_of_not_holdsSender
      ((run_owned (run.mono fun _ _ _ => trivial)).finished atEnd status member)
  waiting waiting held := by
    rcases run_settled run with ⟨settled, taken, outside⟩
    exact exists_executor_step settled outside waiting (taken waiting) held

/-- The scoped future is dropped while its only future waits to be woken. -/
def droppedIdle : List ScopedEvent :=
  [.poll, .spawn, .schedulerReturns, .handOver, .collected, .executor 0 .run,
    .executor 0 .pollPending, .drop none, .cancel, .cancelled, .takeSender]

theorem run_contained_idle :
    ∃ last : ScopedFuture, last.pc = .waiting ∧ last.futures = [.scheduled true] ∧
      last.Contained := by
  have run : Run step Orderly new droppedIdle ⟨.waiting, [.scheduled true], false, none⟩ := by
    iterate 11 apply Run.cons (by trivial) rfl
    exact .nil
  exact ⟨_, rfl, rfl, run_contained run⟩

/-- The scheduler spawns a future and panics. -/
def abandoned : List ScopedEvent :=
  [.poll, .spawn, .schedulerPanics, .takeSender]

theorem not_run_contained :
    ¬ ∀ (events : List ScopedEvent) (last : ScopedFuture),
      Run step (fun _ _ => True) new events last → last.Contained := by
  intro contained
  have runs : abandoned.foldlM step new = some ⟨.waiting, [.boxed], false, none⟩ := rfl
  rcases (contained _ _ (Run.of_foldlM runs)).waiting rfl rfl with
    ⟨index, status, event, _, _, steps⟩
  rcases Option.isSome_iff_exists.mp steps with ⟨next, steps⟩
  cases Steps.of_step steps with
  | executor at_ performs =>
      have boxed := List.mem_of_getElem? at_
      rw [List.mem_singleton.mp boxed] at performs
      cases (FutureStatus.perform_boxed event).symm.trans performs

end ScopedFuture

end Gpui
