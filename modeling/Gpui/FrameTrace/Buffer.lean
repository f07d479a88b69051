import Gpui.Library.Word

/-!
# The frame trace buffer

Threads record events in a ring of slots without locks.  A writer takes an id, claims the
slot of that id by a bit in the slot's sequence, writes its event and publishes it; it gives
up where a newer writer was first or another one is at work.  One call stops the recording:
it sets a bit that turns new writers away, waits until those it finds have left, records
that the trace stopped, and copies the slots.

Every step is one atomic operation, or the write of an event, and the operations are
sequentially consistent.  A `usize` has 64 bits.  `E` is what an event holds beside its id.
-/

namespace Gpui

open Library

def writingSequenceBit : UInt64 := (1 : UInt64) <<< 63
def sequenceMask : UInt64 := ~~~writingSequenceBit
def writerStopBit : UInt64 := (1 : UInt64) <<< (64 - 1)
def writerOverflowBit : UInt64 := (1 : UInt64) <<< (64 - 2)
def writerCountMask : UInt64 := writerOverflowBit - 1
def writerActiveMask : UInt64 := writerOverflowBit ||| writerCountMask

structure FrameTraceEvent (E : Type) where
  eventSequenceId : UInt64
  content : E
deriving DecidableEq

structure FrameTraceSlot (E : Type) where
  sequence : UInt64
  event : FrameTraceEvent E
deriving DecidableEq

structure FrameTraceSnapshot (E : Type) where
  runIdHash : UInt64
  capacity : Nat
  overwrittenEvents : UInt64
  supersededWrites : UInt64
  contendedWrites : UInt64
  events : List (FrameTraceEvent E)

/-! ## Writing an event -/

/-- Where `write_registered` is: what it does next. -/
inductive WriteStep where
  | reserve
  | load (sequence : UInt64)
  | claim (sequence previous : UInt64)
  | write (sequence : UInt64)
  | publish (sequence : UInt64)
  | count
  | contend
  | supersede
deriving DecidableEq

/-- A call of `write_registered`.  `caller` is the call of `record` that made it, by its
number, and nothing for the one that stops the trace. -/
structure TraceWriter (E : Type) where
  caller : Option Nat
  content : E
  pc : WriteStep
deriving DecidableEq

/-- What `write_registered` works on. -/
structure FrameTraceRing (E : Type) where
  slots : List (FrameTraceSlot E)
  nextEventSequenceId : UInt64
  publishedEvents : UInt64
  supersededWrites : UInt64
  contendedWrites : UInt64
  /-- Who has taken the ids 1, 2, and so on, for which content; no code reads this. -/
  reserved : List (Option Nat × E)

namespace FrameTraceRing

variable {E : Type}

/-- What an event that was never written holds is of no account. -/
def new (capacity : Nat) (uninit : FrameTraceEvent E) : FrameTraceRing E where
  slots := List.replicate capacity ⟨0, uninit⟩
  nextEventSequenceId := 1
  publishedEvents := 0
  supersededWrites := 0
  contendedWrites := 0
  reserved := []

/-- Without slots the remainder is not defined, and there is no slot of that index either. -/
def slotIndex (self : FrameTraceRing E) (sequence : UInt64) : Nat :=
  (sequence - 1).toNat % self.slots.length

def setSlot (self : FrameTraceRing E) (index : Nat) (slot : FrameTraceSlot E) :
    FrameTraceRing E :=
  { self with slots := self.slots.set index slot }

/-- The next id is the caller's. -/
def reserve (self : FrameTraceRing E) (caller : Option Nat) (content : E) : FrameTraceRing E :=
  { self with
    nextEventSequenceId := self.nextEventSequenceId + 1
    reserved := self.reserved ++ [(caller, content)] }

/-- One step of `write_registered`: what it does next, or what it returns. -/
def advance (self : FrameTraceRing E) (writer : TraceWriter E) :
    Option (FrameTraceRing E × (WriteStep ⊕ Bool)) :=
  match writer.pc with
  | .reserve =>
      some (self.reserve writer.caller writer.content, .inl (.load self.nextEventSequenceId))
  | .load sequence => do
      let slot ← self.slots[self.slotIndex sequence]?
      let previous := slot.sequence
      if previous &&& writingSequenceBit ≠ 0 then return (self, .inl .contend)
      if sequence ≤ previous then return (self, .inl .supersede)
      return (self, .inl (.claim sequence previous))
  | .claim sequence previous => do
      let slot ← self.slots[self.slotIndex sequence]?
      if slot.sequence ≠ previous then return (self, .inl .contend)
      return (self.setSlot (self.slotIndex sequence)
        { slot with sequence := sequence ||| writingSequenceBit }, .inl (.write sequence))
  | .write sequence => do
      let slot ← self.slots[self.slotIndex sequence]?
      return (self.setSlot (self.slotIndex sequence)
        { slot with event := ⟨sequence, writer.content⟩ }, .inl (.publish sequence))
  | .publish sequence => do
      let slot ← self.slots[self.slotIndex sequence]?
      return (self.setSlot (self.slotIndex sequence) { slot with sequence }, .inl .count)
  | .count => some ({ self with publishedEvents := self.publishedEvents + 1 }, .inr true)
  | .contend => some ({ self with contendedWrites := self.contendedWrites + 1 }, .inr false)
  | .supersede =>
      some ({ self with supersededWrites := self.supersededWrites + 1 }, .inr false)

end FrameTraceRing

/-! ## Recording and stopping -/

/-- Where a call of `record` is. -/
inductive RecordStep where
  | rejected
  | writing (pc : WriteStep)
  | leaving (published : Bool)
  | returned (published : Bool)
deriving DecidableEq

structure RecordCall (E : Type) where
  event : E
  pc : RecordStep
deriving DecidableEq

/-- Where the call of `stop_and_snapshot` is that claimed the snapshot. -/
inductive StopStep (E : Type) where
  | idle
  | stopping (event : E)
  | waiting (event : E)
  | writing (event : E) (pc : WriteStep)
  | counting
  | copying (publishedEvents : UInt64) (index : Nat) (events : List (FrameTraceEvent E))
  | contending (publishedEvents supersededWrites : UInt64) (events : List (FrameTraceEvent E))
  | returned (snapshot : FrameTraceSnapshot E)

structure FrameTraceBuffer (E : Type) where
  ring : FrameTraceRing E
  writerState : UInt64
  snapshotClaimed : Bool
  activeRunIdHash : UInt64
  /-- The calls of `record`, in the order in which they began, and the one of
  `stop_and_snapshot`. -/
  calls : List (RecordCall E)
  stop : StopStep E
  /-- How many calls had begun when the recording was stopped, and the event of the call that
  stopped it; no code reads this. -/
  stopped : Option (Nat × E)

inductive FrameTraceCall (E : Type) where
  /-- A thread calls `record`, which registers it or turns it away. -/
  | record (event : E)
  /-- The call of this number does its next operation. -/
  | advance (number : Nat)
  /-- A thread calls `stop_and_snapshot`, which claims the snapshot or returns nothing. -/
  | stop (event : E)
  /-- The call that claimed it does its next operation. -/
  | advanceStop
deriving DecidableEq

namespace FrameTraceBuffer

variable {E : Type}

def new (capacity : Nat) (uninit : FrameTraceEvent E) (runIdHash : UInt64) :
    FrameTraceBuffer E where
  ring := .new capacity uninit
  writerState := 0
  snapshotClaimed := false
  activeRunIdHash := runIdHash
  calls := []
  stop := .idle
  stopped := none

def isTurnedAway (previous : UInt64) : Bool :=
  previous &&& (writerStopBit ||| writerOverflowBit) ≠ 0 ||
    previous &&& writerCountMask = writerCountMask

def record (self : FrameTraceBuffer E) (event : E) : FrameTraceBuffer E :=
  let previous := self.writerState
  { self with
    writerState := previous + 1
    calls := self.calls ++
      [⟨event, if isTurnedAway previous then .rejected else .writing .reserve⟩] }

def advance (self : FrameTraceBuffer E) (number : Nat) : Option (FrameTraceBuffer E) := do
  let call ← self.calls[number]?
  match call.pc with
  | .rejected =>
      return { self with
        writerState := self.writerState - 1
        calls := self.calls.set number { call with pc := .returned false } }
  | .writing pc =>
      let (ring, next) ← self.ring.advance ⟨some number, call.event, pc⟩
      return { self with
        ring
        calls := self.calls.set number { call with pc := next.elim .writing .leaving } }
  | .leaving published =>
      return { self with
        writerState := self.writerState - 1
        calls := self.calls.set number { call with pc := .returned published } }
  | .returned _ => none

def stopAndSnapshot (self : FrameTraceBuffer E) (event : E) : FrameTraceBuffer E :=
  if self.snapshotClaimed then self
  else { self with snapshotClaimed := true, stop := .stopping event }

def sortedEvents (events : List (FrameTraceEvent E)) : List (FrameTraceEvent E) :=
  events.mergeSort fun first second => first.eventSequenceId ≤ second.eventSequenceId

def advanceStop (self : FrameTraceBuffer E) : Option (FrameTraceBuffer E) :=
  match self.stop with
  | .idle => none
  | .stopping event =>
      some { self with
        writerState := self.writerState ||| writerStopBit
        stop := .waiting event
        stopped := some (self.calls.length, event) }
  | .waiting event =>
      if self.writerState &&& writerActiveMask ≠ 0 then some self
      else some { self with stop := .writing event .reserve }
  | .writing event pc => do
      let (ring, next) ← self.ring.advance ⟨none, event, pc⟩
      return { self with ring, stop := next.elim (.writing event) fun _ => .counting }
  | .counting => some { self with stop := .copying self.ring.publishedEvents 0 [] }
  | .copying publishedEvents index events =>
      match self.ring.slots[index]? with
      | some slot =>
          let sequence := slot.sequence &&& sequenceMask
          some { self with
            stop := .copying publishedEvents (index + 1)
              (if sequence = 0 then events else events ++ [slot.event]) }
      | none =>
          some { self with
            stop := .contending publishedEvents self.ring.supersededWrites
              (sortedEvents events) }
  | .contending publishedEvents supersededWrites events =>
      some { self with
        stop := .returned {
          runIdHash := self.activeRunIdHash
          capacity := self.ring.slots.length
          overwrittenEvents := saturatingSub publishedEvents (.ofNat events.length)
          supersededWrites
          contendedWrites := self.ring.contendedWrites
          events } }
  | .returned _ => none

def step (self : FrameTraceBuffer E) : FrameTraceCall E → Option (FrameTraceBuffer E)
  | .record event => some (self.record event)
  | .advance number => self.advance number
  | .stop event => some (self.stopAndSnapshot event)
  | .advanceStop => self.advanceStop

end FrameTraceBuffer

end Gpui
