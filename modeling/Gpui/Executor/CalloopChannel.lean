import Gpui.Executor.PriorityQueue

/-!
# The calloop channel

The sender of the channel wakes the event loop with a ping whenever it has pushed a message,
and once when it is dropped.  The event loop drains the ping and then takes messages until
there are none.  Any number of threads send at a time; nobody sends while the sender is
dropped.

The ping of a drop comes before the sender is counted out.  A loop that finds no message in
between takes the channel for open, and nothing wakes it again.

The receiver lives as long as the loop has it.
-/

namespace Gpui

open Library

inductive ChannelEvent (T : Type) where
  | msg (item : T)
  | closed
deriving DecidableEq

/-- How far `drop` has come. -/
inductive SenderState where
  | alive
  /-- It has pinged; the fields are not dropped. -/
  | pinged
  | dropped
deriving DecidableEq, Repr

/-- What a call of `process_events` has seen. -/
structure ProcessEvents where
  isEmpty : Bool
  disconnected : Bool
  /-- The iteration over the messages has ended. -/
  ended : Bool
deriving DecidableEq, Repr

structure CalloopChannel (T : Type) where
  queues : PriorityQueues T
  senderCount : Nat
  /-- The ping that the source has not drained. -/
  pinged : Bool
  sender : SenderState
  /-- The sends that have not got the lock. -/
  sending : List (Priority × T)
  /-- The sends that have pushed and have not pinged. -/
  pinging : Nat
  processing : Option ProcessEvents
  removed : Bool
  /-- What the callback was given so far, which no code reads. -/
  delivered : List (ChannelEvent T)
  /-- The messages pushed so far, which no code reads. -/
  pushed : Multiset T

inductive CalloopEvent (T : Type) where
  | send (priority : Priority) (item : T)
  | push (index : Nat)
  | pingSent
  | pingDropped
  | dropSender
  | beginProcess
  | tryNext (draws : Draws)
  | endProcess

namespace CalloopChannel

variable {T : Type}

def new : CalloopChannel T where
  queues := .empty
  senderCount := 1
  pinged := false
  sender := .alive
  sending := []
  pinging := 0
  processing := none
  removed := false
  delivered := []
  pushed := 0

/-- The queue gets its message; a priority that panics adds none. -/
def push (self : CalloopChannel T) (index : Nat) : Option (CalloopChannel T) := do
  let (priority, item) ← self.sending[index]?
  let self := { self with sending := self.sending.eraseIdx index }
  match self.queues.push item priority with
  | some queues =>
      return { self with
        queues, pinging := self.pinging + 1, pushed := item ::ₘ self.pushed }
  | none => return self

/-- `TryIter::next` and what the loop does with the result. -/
def tryNext (self : CalloopChannel T) (events : ProcessEvents) (draws : Draws) :
    Option (CalloopChannel T) :=
  if self.queues.isEmpty ∧ self.senderCount = 0 then
    some { self with processing := some { events with disconnected := true, ended := true } }
  else if self.queues.isEmpty then
    some { self with processing := some { events with ended := true } }
  else do
    let (item, queues) ← self.queues.popInner draws
    let self := { self with queues }
    match item with
    | some item =>
        return { self with
          delivered := self.delivered ++ [.msg item]
          processing := some { events with isEmpty := false } }
    | none => return { self with processing := some { events with ended := true } }

/-- The end of `process_events`. -/
def endProcess (self : CalloopChannel T) (events : ProcessEvents) : CalloopChannel T :=
  let self := { self with processing := none }
  if events.disconnected then
    { self with delivered := self.delivered ++ [.closed], removed := true }
  else if events.isEmpty then self
  else { self with pinged := true }

def step (self : CalloopChannel T) : CalloopEvent T → Option (CalloopChannel T)
  | .send priority item =>
      if self.sender = .alive then
        some { self with sending := self.sending ++ [(priority, item)] }
      else none
  | .push index => self.push index
  | .pingSent =>
      if self.pinging = 0 then none
      else some { self with pinging := self.pinging - 1, pinged := true }
  | .pingDropped =>
      if self.sender = .alive ∧ self.sending = [] ∧ self.pinging = 0 then
        some { self with sender := .pinged, pinged := true }
      else none
  | .dropSender =>
      if self.sender = .pinged then
        some { self with sender := .dropped, senderCount := self.senderCount - 1 }
      else none
  | .beginProcess =>
      if self.processing = none ∧ self.removed = false ∧ self.pinged = true then
        some { self with pinged := false, processing := some ⟨true, false, false⟩ }
      else none
  | .tryNext draws => do
      let events ← self.processing
      if events.ended then none else self.tryNext events draws
  | .endProcess => do
      let events ← self.processing
      if events.ended then some (self.endProcess events) else none

/-- No ping is pending, and no send, drop or `process_events` is in progress. -/
structure Quiet (channel : CalloopChannel T) : Prop where
  pinged : channel.pinged = false
  sending : channel.sending = []
  pinging : channel.pinging = 0
  sender : channel.sender ≠ .pinged
  processing : channel.processing = none

/-- What has been pushed is queued or was delivered. -/
def Conserved (self : CalloopChannel T) : Prop :=
  self.pushed = self.queues.items + Multiset.ofList (self.delivered.filterMap fun
    | .msg item => some item
    | .closed => none)

/-- Nothing is lost, and nothing comes after the close. -/
structure Delivers (channel : CalloopChannel T) : Prop where
  conserved : channel.Conserved
  empty : channel.Quiet → channel.queues.isEmpty = true
  closed : channel.Quiet → channel.sender = .dropped → .closed ∈ channel.delivered
  last : ∀ front back, channel.delivered = front ++ .closed :: back →
    back = [] ∧ channel.queues.isEmpty = true ∧ channel.sending = []

/-- The loop does not find the channel empty between the ping of the drop and the end of it,
unless something makes it look again. -/
def Undisturbed (self : CalloopChannel T) : CalloopEvent T → Prop
  | .tryNext _ => self.sender = .pinged → self.queues.isEmpty = true →
      self.pinged = true ∨ ∃ events ∈ self.processing, events.isEmpty = false
  | _ => True

/-! ## What keeps the loop going -/

/-- The call will find a message, or pings when it ends. -/
def LooksAgain (self : CalloopChannel T) : Prop :=
  ∃ events, self.processing = some events ∧ (events.ended = false ∨ events.isEmpty = false)

/-- Whatever there is to see will be looked at. -/
structure Attended (channel : CalloopChannel T) : Prop where
  conserved : channel.Conserved
  messages : channel.queues.isEmpty = false →
    channel.pinging ≠ 0 ∨ channel.pinged = true ∨ channel.LooksAgain
  close : channel.sender ≠ .alive → .closed ∈ channel.delivered ∨ channel.pinged = true ∨
    channel.LooksAgain ∨ ∃ events, channel.processing = some events ∧ events.disconnected = true
  count : channel.sender ≠ .dropped → channel.senderCount = 1
  countDropped : channel.sender = .dropped → channel.senderCount = 0
  unsent : channel.sender ≠ .alive → channel.sending = [] ∧ channel.pinging = 0
  disconnected : ∀ events, channel.processing = some events → events.disconnected = true →
    events.ended = true ∧ channel.sender = .dropped ∧ channel.queues.isEmpty = true
  running : channel.removed = true → channel.processing = none
  closed : .closed ∈ channel.delivered →
    channel.removed = true ∧ channel.sender = .dropped ∧ channel.queues.isEmpty = true
  last : ∀ front back, channel.delivered = front ++ .closed :: back → back = []

theorem attended_new : (new : CalloopChannel T).Attended where
  conserved := rfl
  messages full := by cases full
  close dropped := absurd rfl dropped
  count _ := rfl
  countDropped dropped := by cases dropped
  unsent dropped := absurd rfl dropped
  disconnected events running := by cases running
  running removed := by cases removed
  closed member := absurd member List.not_mem_nil
  last front back split := absurd split.symm (List.append_ne_nil_of_right_ne_nil _ (List.cons_ne_nil _ _))

theorem Attended.delivers {channel : CalloopChannel T} (attended : channel.Attended) :
    channel.Delivers where
  conserved := attended.conserved
  empty quiet := by
    by_contra full
    rcases attended.messages (Bool.eq_false_iff.mpr full) with pinging | pinged | ⟨events, running, _⟩
    · exact pinging quiet.pinging
    · cases quiet.pinged.symm.trans pinged
    · cases quiet.processing.symm.trans running
  closed quiet dropped := by
    have gone : channel.sender ≠ .alive := by
      rw [dropped]
      exact SenderState.noConfusion
    rcases attended.close gone with delivered | pinged | ⟨events, running, _⟩ | ⟨events, running, _⟩
    · exact delivered
    · cases quiet.pinged.symm.trans pinged
    · cases quiet.processing.symm.trans running
    · cases quiet.processing.symm.trans running
  last front back split := by
    have member : .closed ∈ channel.delivered := by
      rw [split]
      exact List.mem_append_right _ List.mem_cons_self
    rcases attended.closed member with ⟨_, dropped, empty⟩
    refine ⟨attended.last front back split, empty, (attended.unsent ?_).1⟩
    rw [dropped]
    exact SenderState.noConfusion

/-! ## Steps -/

variable {self next : CalloopChannel T}

/-- While something is sent, the sender is there. -/
theorem Attended.alive_of_sending (attended : self.Attended) (sends : self.sending ≠ []) :
    self.sender = .alive := by
  by_contra gone
  exact sends (attended.unsent gone).1

theorem Attended.alive_of_pinging (attended : self.Attended) (pings : self.pinging ≠ 0) :
    self.sender = .alive := by
  by_contra gone
  exact pings (attended.unsent gone).2

/-- The sender that is there has not been found disconnected. -/
theorem Attended.not_disconnected (attended : self.Attended) (alive : self.sender = .alive)
    {events : ProcessEvents} (running : self.processing = some events) :
    events.disconnected ≠ true := by
  intro disconnected
  cases alive.symm.trans (attended.disconnected events running disconnected).2.1

theorem Attended.not_closed (attended : self.Attended) (alive : self.sender = .alive) :
    .closed ∉ self.delivered := by
  intro closed
  cases alive.symm.trans (attended.closed closed).2.1

theorem Attended.push (attended : self.Attended) {index : Nat}
    (pushes : self.push index = some next) : next.Attended := by
  rcases Option.bind_eq_some_iff.mp pushes with ⟨⟨priority, item⟩, found, rest⟩
  have alive : self.sender = .alive := by
    apply attended.alive_of_sending
    intro none
    rw [none] at found
    cases found
  cases pushed : self.queues.push item priority with
  | none =>
      simp only [pushed] at rest
      rcases Option.some.inj rest with rfl
      exact { attended with
        unsent := fun gone => absurd alive gone }
  | some queues =>
      simp only [pushed] at rest
      rcases Option.some.inj rest with rfl
      constructor
      · rw [Conserved, PriorityQueues.items_push pushed, Multiset.cons_add, ← attended.conserved]
      · exact fun _ => Or.inl (Nat.succ_ne_zero _)
      · exact fun gone => absurd alive gone
      · exact attended.count
      · exact attended.countDropped
      · exact fun gone => absurd alive gone
      · intro events running disconnected
        exact absurd disconnected (attended.not_disconnected alive running)
      · exact attended.running
      · exact fun closed => absurd closed (attended.not_closed alive)
      · exact attended.last

/-- While a call runs, the close has not been delivered. -/
theorem Attended.open_of_running (attended : self.Attended) {events : ProcessEvents}
    (running : self.processing = some events) : .closed ∉ self.delivered := by
  intro closed
  cases (attended.running (attended.closed closed).1).symm.trans running

theorem Attended.not_removed (attended : self.Attended) {events : ProcessEvents}
    (running : self.processing = some events) : self.removed ≠ true := by
  intro removed
  cases (attended.running removed).symm.trans running

theorem append_msg_last {delivered : List (ChannelEvent T)} (unclosed : .closed ∉ delivered)
    (item : T) (front back : List (ChannelEvent T)) :
    delivered ++ [.msg item] ≠ front ++ .closed :: back := by
  intro split
  have member : ChannelEvent.closed ∈ delivered ++ [.msg item] := by
    rw [split]
    exact List.mem_append_right _ List.mem_cons_self
  rcases List.mem_append.mp member with before | last
  · exact unclosed before
  · cases List.mem_singleton.mp last

/-- The iteration ends without a message. -/
theorem Attended.endIteration (attended : self.Attended) {events : ProcessEvents}
    (running : self.processing = some events) (empty : self.queues.isEmpty = true)
    (undisturbed : self.sender = .pinged → self.pinged = true ∨ events.isEmpty = false)
    (disconnected : Bool) (found : disconnected = true ↔ self.sender = .dropped) :
    ({ self with processing := some { events with disconnected, ended := true } } :
      CalloopChannel T).Attended where
  conserved := attended.conserved
  messages full := by cases empty.symm.trans full
  close gone := by
    cases state : self.sender with
    | alive => exact absurd state gone
    | pinged =>
        rcases undisturbed state with pinged | received
        · exact Or.inr (Or.inl pinged)
        · exact Or.inr (Or.inr (Or.inl ⟨_, rfl, Or.inr received⟩))
    | dropped => exact Or.inr (Or.inr (Or.inr ⟨_, rfl, found.mpr state⟩))
  count := attended.count
  countDropped := attended.countDropped
  unsent := attended.unsent
  disconnected other same isDisconnected := by
    rcases Option.some.inj same with rfl
    exact ⟨rfl, found.mp isDisconnected, empty⟩
  running removed := absurd removed (attended.not_removed running)
  closed closed := absurd closed (attended.open_of_running running)
  last := attended.last

theorem Attended.tryNext (attended : self.Attended) {events : ProcessEvents}
    (running : self.processing = some events) (going : events.ended = false) {draws : Draws}
    (undisturbed : self.sender = .pinged → self.queues.isEmpty = true →
      self.pinged = true ∨ events.isEmpty = false)
    (takes : self.tryNext events draws = some next) : next.Attended := by
  have connected : events.disconnected = false := by
    by_contra disconnected
    rw [Bool.not_eq_false] at disconnected
    cases going.symm.trans (attended.disconnected events running disconnected).1
  rw [CalloopChannel.tryNext] at takes
  by_cases empty : self.queues.isEmpty = true
  · by_cases noSender : self.senderCount = 0
    · rw [if_pos ⟨empty, noSender⟩] at takes
      rcases Option.some.inj takes with rfl
      apply attended.endIteration running empty (undisturbed · empty)
      apply iff_of_true rfl
      by_contra notDropped
      cases noSender.symm.trans (attended.count notDropped)
    · rw [if_neg fun both => noSender both.2, if_pos empty] at takes
      rcases Option.some.inj takes with rfl
      have ends := attended.endIteration running empty (undisturbed · empty) false
        (iff_of_false Bool.false_ne_true fun dropped => noSender (attended.countDropped dropped))
      rw [← connected] at ends
      exact ends
  · rw [if_neg fun both => empty both.1, if_neg empty] at takes
    rcases self.queues.popInner_isSome (Bool.eq_false_iff.mpr empty) draws with
      ⟨item, queues, pops⟩
    rw [pops] at takes
    rcases Option.some.inj takes with rfl
    have popped := self.queues.popInner_spec draws
    rw [pops] at popped
    rcases popped with ⟨_, same, popped⟩
    rcases Option.some.inj same with rfl
    have looks : (∃ other, some { events with isEmpty := false } = some other ∧
        (other.ended = false ∨ other.isEmpty = false)) := ⟨_, rfl, Or.inr rfl⟩
    constructor
    · rw [Conserved, attended.conserved, List.filterMap_append, ← Multiset.coe_add]
      rw [show self.queues.items = item ::ₘ queues.items from popped]
      simp only [List.filterMap_cons, List.filterMap_nil, Multiset.coe_singleton,
        Multiset.cons_add]
      rw [← Multiset.singleton_add, add_comm, add_assoc]
    · exact fun _ => Or.inr (Or.inr looks)
    · exact fun _ => Or.inr (Or.inr (Or.inl looks))
    · exact attended.count
    · exact attended.countDropped
    · exact attended.unsent
    · intro other same disconnected
      rcases Option.some.inj same with rfl
      cases connected.symm.trans disconnected
    · exact fun removed => absurd removed (attended.not_removed running)
    · intro closed
      rcases List.mem_append.mp closed with before | last
      · exact absurd before (attended.open_of_running running)
      · cases List.mem_singleton.mp last
    · intro front back split
      exact absurd split (append_msg_last (attended.open_of_running running) item front back)

theorem Attended.endProcess (attended : self.Attended) {events : ProcessEvents}
    (running : self.processing = some events) (ended : events.ended = true) :
    (self.endProcess events).Attended := by
  rw [CalloopChannel.endProcess]
  by_cases disconnected : events.disconnected = true
  · rcases attended.disconnected events running disconnected with ⟨_, dropped, empty⟩
    have member : ChannelEvent.closed ∈ self.delivered ++ [.closed] :=
      List.mem_append_right _ (List.mem_singleton_self _)
    rw [if_pos disconnected]
    constructor
    · rw [Conserved, List.filterMap_append, List.filterMap_cons, List.filterMap_nil,
        List.append_nil]
      exact attended.conserved
    · intro full
      cases empty.symm.trans full
    · exact fun _ => Or.inl member
    · exact attended.count
    · exact attended.countDropped
    · exact attended.unsent
    · intro other same
      cases same
    · exact fun _ => rfl
    · exact fun _ => ⟨rfl, dropped, empty⟩
    · intro front back split
      rcases List.eq_nil_or_concat back with rfl | ⟨rest, event, rfl⟩
      · rfl
      · -- The close would have been delivered before.
        rw [List.concat_eq_append, ← List.cons_append, ← List.append_assoc] at split
        rcases List.append_inj' split rfl with ⟨before, _⟩
        apply absurd _ (attended.open_of_running running)
        rw [before]
        exact List.mem_append_right _ List.mem_cons_self
  · rw [if_neg disconnected]
    rw [Bool.not_eq_true] at disconnected
    by_cases received : events.isEmpty = true
    · rw [if_pos received]
      have unlooked : ¬ self.LooksAgain := by
        rintro ⟨other, same, looks⟩
        rcases Option.some.inj (running.symm.trans same) with rfl
        rcases looks with going | full
        · cases ended.symm.trans going
        · cases received.symm.trans full
      constructor
      · exact attended.conserved
      · intro full
        rcases attended.messages full with pinging | pinged | looks
        · exact Or.inl pinging
        · exact Or.inr (Or.inl pinged)
        · exact absurd looks unlooked
      · intro gone
        rcases attended.close gone with closed | pinged | looks | ⟨other, same, isDisconnected⟩
        · exact Or.inl closed
        · exact Or.inr (Or.inl pinged)
        · exact absurd looks unlooked
        · rcases Option.some.inj (running.symm.trans same) with rfl
          cases disconnected.symm.trans isDisconnected
      · exact attended.count
      · exact attended.countDropped
      · exact attended.unsent
      · intro other same
        cases same
      · exact fun _ => rfl
      · exact attended.closed
      · exact attended.last
    · rw [if_neg received]
      constructor
      · exact attended.conserved
      · exact fun _ => Or.inr (Or.inl rfl)
      · exact fun _ => Or.inr (Or.inl rfl)
      · exact attended.count
      · exact attended.countDropped
      · exact attended.unsent
      · intro other same
        cases same
      · exact fun _ => rfl
      · exact attended.closed
      · exact attended.last

theorem Attended.step (attended : self.Attended) {event : CalloopEvent T}
    (undisturbed : self.Undisturbed event) (steps : self.step event = some next) :
    next.Attended := by
  cases event with
  | send priority item =>
      rcases Option.ite_none_right_eq_some.mp steps with ⟨alive, same⟩
      rcases Option.some.inj same with rfl
      exact { attended with unsent := fun gone => absurd alive gone }
  | push index => exact attended.push steps
  | pingSent =>
      rcases Option.ite_none_left_eq_some.mp steps with ⟨pings, same⟩
      rcases Option.some.inj same with rfl
      have alive := attended.alive_of_pinging pings
      exact { attended with
        messages := fun _ => Or.inr (Or.inl rfl)
        close := fun gone => absurd alive gone
        unsent := fun gone => absurd alive gone }
  | pingDropped =>
      rcases Option.ite_none_right_eq_some.mp steps with ⟨⟨alive, sends, pings⟩, same⟩
      rcases Option.some.inj same with rfl
      constructor
      · exact attended.conserved
      · exact fun _ => Or.inr (Or.inl rfl)
      · exact fun _ => Or.inr (Or.inl rfl)
      · exact fun _ => attended.count (by rw [alive]; exact SenderState.noConfusion)
      · exact SenderState.noConfusion
      · exact fun _ => ⟨sends, pings⟩
      · intro events running disconnected
        exact absurd disconnected (attended.not_disconnected alive running)
      · exact attended.running
      · exact fun closed => absurd closed (attended.not_closed alive)
      · exact attended.last
  | dropSender =>
      rcases Option.ite_none_right_eq_some.mp steps with ⟨pinged, same⟩
      rcases Option.some.inj same with rfl
      have gone : self.sender ≠ .alive := by
        rw [pinged]
        exact SenderState.noConfusion
      have count := attended.count (by rw [pinged]; exact SenderState.noConfusion)
      constructor
      · exact attended.conserved
      · exact attended.messages
      · exact fun _ => attended.close gone
      · exact fun notDropped => absurd rfl notDropped
      · exact fun _ => by rw [count]
      · exact fun _ => attended.unsent gone
      · intro events running disconnected
        rcases attended.disconnected events running disconnected with ⟨ended, _, empty⟩
        exact ⟨ended, rfl, empty⟩
      · exact attended.running
      · intro closed
        rcases attended.closed closed with ⟨removed, _, empty⟩
        exact ⟨removed, rfl, empty⟩
      · exact attended.last
  | beginProcess =>
      rcases Option.ite_none_right_eq_some.mp steps with ⟨⟨idle, removed, pinged⟩, same⟩
      rcases Option.some.inj same with rfl
      have looks : ∃ events, some (ProcessEvents.mk true false false) = some events ∧
          (events.ended = false ∨ events.isEmpty = false) := ⟨_, rfl, Or.inl rfl⟩
      exact { attended with
        messages := fun _ => Or.inr (Or.inr looks)
        close := fun _ => Or.inr (Or.inr (Or.inl looks))
        disconnected := by
          intro events same disconnected
          rcases Option.some.inj same with rfl
          cases disconnected
        running := by
          intro isRemoved
          cases removed.symm.trans isRemoved }
  | tryNext draws =>
      rcases Option.bind_eq_some_iff.mp steps with ⟨events, running, rest⟩
      rcases Option.ite_none_left_eq_some.mp rest with ⟨going, takes⟩
      apply attended.tryNext running (Bool.eq_false_iff.mpr going) _ takes
      intro pinged empty
      rcases undisturbed pinged empty with again | ⟨other, same, received⟩
      · exact Or.inl again
      · rcases Option.some.inj (running.symm.trans same) with rfl
        exact Or.inr received
  | endProcess =>
      rcases Option.bind_eq_some_iff.mp steps with ⟨events, running, rest⟩
      rcases Option.ite_none_right_eq_some.mp rest with ⟨ended, same⟩
      rcases Option.some.inj same with rfl
      exact attended.endProcess running ended

/-- In every interleaving in which the loop is not misled by a drop half done, neither
messages nor the close are lost. -/
theorem run_deliversMessages {events : List (CalloopEvent T)} {last : CalloopChannel T}
    (run : Run step Undisturbed new events last) : last.Delivers := by
  have attended : last.Attended := by
    apply run.invariant (fun _ channel => channel.Attended)
    · exact attended_new
    · intro _ _ _ _ attended undisturbed steps
      exact attended.step undisturbed steps
  exact attended.delivers

/-- A message is sent and taken, and the sender is dropped while the loop does nothing. -/
def sentAndDropped : List (CalloopEvent Nat) :=
  [.send .medium 7, .push 0, .pingSent, .beginProcess, .tryNext ⟨0, 0, 0⟩, .tryNext ⟨0, 0, 0⟩,
    .endProcess, .pingDropped, .dropSender, .beginProcess, .tryNext ⟨0, 0, 0⟩, .endProcess]

def sentAndClosed : CalloopChannel Nat where
  queues := .empty
  senderCount := 0
  pinged := false
  sender := .dropped
  sending := []
  pinging := 0
  processing := none
  removed := true
  delivered := [.msg 7, .closed]
  pushed := {7}

theorem run_deliversMessages_sentAndDropped :
    sentAndClosed.Quiet ∧ Run step Undisturbed new sentAndDropped sentAndClosed ∧
      sentAndClosed.Delivers := by
  have run : Run step Undisturbed new sentAndDropped sentAndClosed := by
    apply Run.cons trivial rfl
    apply Run.cons trivial rfl
    apply Run.cons trivial rfl
    apply Run.cons trivial rfl
    apply Run.cons SenderState.noConfusion rfl
    apply Run.cons SenderState.noConfusion rfl
    apply Run.cons trivial rfl
    apply Run.cons trivial rfl
    apply Run.cons trivial rfl
    apply Run.cons trivial rfl
    apply Run.cons SenderState.noConfusion rfl
    apply Run.cons trivial rfl
    exact .nil
  exact ⟨⟨rfl, rfl, rfl, SenderState.noConfusion, rfl⟩, run, run_deliversMessages run⟩

/-- The loop looks between the ping of the drop and the end of it. -/
def lookedTooEarly : List (CalloopEvent Nat) :=
  [.pingDropped, .beginProcess, .tryNext ⟨0, 0, 0⟩, .endProcess, .dropSender]

theorem not_run_deliversMessages :
    ¬ ∀ (events : List (CalloopEvent Nat)) (last : CalloopChannel Nat),
      Run step (fun _ _ => True) new events last → last.Delivers := by
  intro delivers
  have runs : ∃ last : CalloopChannel Nat, lookedTooEarly.foldlM step new = some last ∧
      last.Quiet ∧ last.sender = .dropped ∧ last.delivered = [] :=
    ⟨_, rfl, ⟨rfl, rfl, rfl, by decide, rfl⟩, rfl, rfl⟩
  rcases runs with ⟨last, runs, quiet, dropped, none⟩
  have closed := (delivers _ _ (Run.of_foldlM runs)).closed quiet dropped
  rw [none] at closed
  cases closed

end CalloopChannel

end Gpui
