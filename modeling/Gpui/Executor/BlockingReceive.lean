import Gpui.Executor.PriorityQueue

/-!
# Receiving from the priority queue

Any number of threads send through the one sender, and every receiver and every copy of it
receives on a thread of its own.  A step is what a thread does while it holds the lock, or
an atomic operation outside of it; which receiver a notification wakes is left open.

A receiver that was woken does not look whether the queue is still as the sender left it.
Its receive is right if it is, and only then.
-/

namespace Gpui

open Gpui.Library

inductive RecvError where
  | recvError
deriving DecidableEq, Repr

/-- What `pop_inner` returns. -/
abbrev PopResult (T : Type) := Except RecvError (Option T)

inductive ReceiverPc where
  | absent
  | idle
  /-- In `recv`, from the wait until it has the lock again. -/
  | waiting
deriving DecidableEq, Repr

structure PriorityQueueState (T R : Type) where
  queues : PriorityQueues T
  /-- The receivers that nobody has notified yet. -/
  condvar : List R
  receiverCount : Nat
  senderCount : Nat
  /-- The sends that have seen a receiver and have not got the lock. -/
  sending : List (Priority × T)
  receivers : R → ReceiverPc

inductive QueueEvent (T R : Type) where
  | send (priority : Priority) (item : T)
  | push (index : Nat) (woken : Option R)
  | dropSender
  | clone (receiver copy : R)
  | dropReceiver (receiver : R)
  /-- A blocking receive gets the lock for the first time. -/
  | recv (receiver : R) (draws : Draws)
  /-- A blocking receive gets the lock back. -/
  | wake (receiver : R) (draws : Draws)
  | tryRecv (receiver : R) (draws : Draws)
deriving DecidableEq

namespace PriorityQueueState

variable {T R : Type} [DecidableEq R]

def new (receiver : R) : PriorityQueueState T R where
  queues := .empty
  condvar := []
  receiverCount := 1
  senderCount := 1
  sending := []
  receivers := Function.update (fun _ => .absent) receiver .idle

def goTo (self : PriorityQueueState T R) (receiver : R) (pc : ReceiverPc) :
    PriorityQueueState T R :=
  { self with receivers := Function.update self.receivers receiver pc }

@[simp]
theorem goTo_receivers (self : PriorityQueueState T R) (receiver other : R) (pc : ReceiverPc) :
    (self.goTo receiver pc).receivers other =
      if other = receiver then pc else self.receivers other :=
  Function.update_apply ..

/-- `notify_one`: wake a receiver, if one waits. -/
def notifyOne (self : PriorityQueueState T R) : Option R → Option (PriorityQueueState T R)
  | some receiver =>
      if receiver ∈ self.condvar then some { self with condvar := self.condvar.erase receiver }
      else none
  | none => if self.condvar = [] then some self else none

/-- The rest of `pop_inner`, under the lock. -/
def popLocked (self : PriorityQueueState T R) (receiver : R) (draws : Draws) :
    Option (PriorityQueueState T R × Option (PopResult T)) := do
  let (item, queues) ← self.queues.popInner draws
  return ({ self with queues }.goTo receiver .idle, some (.ok item))

/-- `pop_inner(true)` up to its return or its wait. -/
def recv (self : PriorityQueueState T R) (receiver : R) (draws : Draws) :
    Option (PriorityQueueState T R × Option (PopResult T)) :=
  if self.queues.isEmpty ∧ self.senderCount = 0 then some (self, some (.error .recvError))
  else if self.queues.isEmpty then
    some ({ self with condvar := self.condvar ++ [receiver] }.goTo receiver .waiting, none)
  else self.popLocked receiver draws

/-- `pop_inner(false)`. -/
def tryRecv (self : PriorityQueueState T R) (receiver : R) (draws : Draws) :
    Option (PriorityQueueState T R × Option (PopResult T)) :=
  if self.queues.isEmpty ∧ self.senderCount = 0 then some (self, some (.error .recvError))
  else if self.queues.isEmpty then some (self, some (.ok none))
  else self.popLocked receiver draws

/-- What an event does, and what the receive returns that it ends. -/
def perform (self : PriorityQueueState T R) :
    QueueEvent T R → Option (PriorityQueueState T R × Option (PopResult T))
  | .send priority item =>
      if self.senderCount = 0 then none
      else if self.receiverCount = 0 then some (self, none)
      else some ({ self with sending := self.sending ++ [(priority, item)] }, none)
  | .push index woken => do
      let (priority, item) ← self.sending[index]?
      let self := { self with sending := self.sending.eraseIdx index }
      match self.queues.push item priority with
      | some queues => ({ self with queues }.notifyOne woken).map fun self => (self, none)
      | none => some (self, none)
  | .dropSender =>
      if self.senderCount = 0 ∨ self.sending ≠ [] then none
      else some ({ self with senderCount := self.senderCount - 1 }, none)
  | .clone receiver copy =>
      if self.receivers receiver = .idle ∧ self.receivers copy = .absent then
        some ({ self with receiverCount := self.receiverCount + 1 }.goTo copy .idle, none)
      else none
  | .dropReceiver receiver =>
      if self.receivers receiver = .idle then
        some ({ self with receiverCount := self.receiverCount - 1 }.goTo receiver .absent, none)
      else none
  | .recv receiver draws =>
      if self.receivers receiver = .idle then self.recv receiver draws else none
  | .wake receiver draws =>
      if self.receivers receiver = .waiting ∧ receiver ∉ self.condvar then
        self.popLocked receiver draws
      else none
  | .tryRecv receiver draws =>
      if self.receivers receiver = .idle then self.tryRecv receiver draws else none

def step (self : PriorityQueueState T R) (event : QueueEvent T R) :
    Option (PriorityQueueState T R) :=
  (self.perform event).map Prod.fst

/-- The result of the receive that ends with this event. -/
def returned (self : PriorityQueueState T R) (event : QueueEvent T R) : Option (PopResult T) :=
  (self.perform event).bind Prod.snd

/-! ## What a receive makes of the result -/

/-- `PriorityQueueReceiver::pop`, which unwraps. -/
def pop : PopResult T → Option (Except RecvError T)
  | .ok (some item) => some (.ok item)
  | .ok none => none
  | .error error => some (.error error)

/-- `Iter::next` -/
def next : PopResult T → Option T
  | .ok item => item
  | .error _ => none

/-- Every sender has been dropped, and everything has been received. -/
def Finished (self : PriorityQueueState T R) : Prop :=
  self.senderCount = 0 ∧ self.queues.isEmpty = true

/-- A blocking receive does not report an empty result, does not panic, and fails or ends the
iteration only when everything is finished. -/
structure Receives (state : PriorityQueueState T R) (result : PopResult T) : Prop where
  notEmpty : result ≠ .ok none
  pops : ∃ popped, pop result = some popped ∧
    ∀ error, popped = .error error → state.Finished
  ends : next result = none → state.Finished

/-- If a blocking receive returns with this event, it is right to. -/
def Correct (self : PriorityQueueState T R) : QueueEvent T R → Prop
  | .recv receiver draws =>
      ∀ result, self.returned (.recv receiver draws) = some result → self.Receives result
  | .wake receiver draws =>
      ∀ result, self.returned (.wake receiver draws) = some result → self.Receives result
  | _ => True

/-- A receiver that was woken finds something in the queue when it has the lock again. -/
def Undisturbed (self : PriorityQueueState T R) : QueueEvent T R → Prop
  | .wake _ _ => self.queues.isEmpty = false
  | _ => True

omit [DecidableEq R] in
theorem receives_some (self : PriorityQueueState T R) (item : T) :
    self.Receives (.ok (some item)) where
  notEmpty same := by cases same
  pops := ⟨.ok item, rfl, fun _ same => by cases same⟩
  ends same := by cases same

omit [DecidableEq R] in
theorem receives_error {self : PriorityQueueState T R} (finished : self.Finished)
    (error : RecvError) : self.Receives (.error error) where
  notEmpty same := by cases same
  pops := ⟨.error error, rfl, fun _ _ => finished⟩
  ends _ := finished

/-- Under the lock, a receive gets something exactly if there is something. -/
theorem popLocked_receives (self : PriorityQueueState T R) (receiver : R) (draws : Draws) :
    ∃ after result, self.popLocked receiver draws = some (after, some result) ∧
      (self.Receives result ↔ self.queues.isEmpty = false) := by
  rcases self.queues.popInner_spec draws with ⟨⟨item, queues⟩, pops, spec⟩
  have locked : self.popLocked receiver draws =
      some ({ self with queues }.goTo receiver .idle, some (.ok item)) := by
    rw [popLocked, pops]
    rfl
  refine ⟨_, _, locked, ?_⟩
  cases item with
  | none =>
      have empty := spec.eq_none_iff.mp rfl
      constructor
      · intro receives
        exact absurd rfl receives.notEmpty
      · intro nonempty
        cases nonempty.symm.trans empty
  | some item =>
      constructor
      · intro _
        apply Bool.eq_false_iff.mpr
        intro empty
        cases spec.eq_none_iff.mpr empty
      · exact fun _ => self.receives_some item

/-- A blocking receive is right exactly if it did not wait for nothing. -/
theorem correct_iff_undisturbed {self after : PriorityQueueState T R} {event : QueueEvent T R}
    (steps : self.step event = some after) : self.Correct event ↔ self.Undisturbed event := by
  cases event with
  | recv receiver draws =>
      constructor
      · exact fun _ => trivial
      · intro _ result returns
        have idle : self.receivers receiver = .idle := by
          by_contra busy
          rw [returned, perform, if_neg busy] at returns
          cases returns
        rw [returned, perform, if_pos idle, recv] at returns
        by_cases finished : self.queues.isEmpty = true ∧ self.senderCount = 0
        · rw [if_pos finished] at returns
          rcases Option.some.inj returns with rfl
          exact receives_error finished.symm _
        · rw [if_neg finished] at returns
          by_cases empty : self.queues.isEmpty = true
          · rw [if_pos empty] at returns
            cases returns
          · rw [if_neg empty] at returns
            rcases self.popLocked_receives receiver draws with ⟨after, popped, pops, right⟩
            rw [pops] at returns
            rcases Option.some.inj returns with rfl
            exact right.mpr (Bool.eq_false_iff.mpr empty)
  | wake receiver draws =>
      have woken : self.receivers receiver = .waiting ∧ receiver ∉ self.condvar := by
        by_contra asleep
        rw [step, perform, if_neg asleep] at steps
        cases steps
      rcases self.popLocked_receives receiver draws with ⟨after, popped, pops, right⟩
      have returns : self.returned (.wake receiver draws) = some popped := by
        rw [returned, perform, if_pos woken, pops]
        rfl
      constructor
      · exact fun correct => right.mp (correct popped returns)
      · intro undisturbed result returned
        rcases Option.some.inj (returns.symm.trans returned) with rfl
        exact right.mpr undisturbed
  | _ => exact Iff.rfl

/-- While one receiver waits for what is sent, another one comes and takes it. -/
def stolen : List (QueueEvent Nat Bool) :=
  [.clone false true, .recv false ⟨0, 0, 0⟩, .send .high 7, .push 0 (some false),
    .recv true ⟨0, 0, 0⟩]

end PriorityQueueState

end Gpui
