import Gpui.Library.Word

/-!
# Display links

CoreVideo invokes the callback of a display link on a thread of its own, one call after the
other.  The callback stores what it was told in atomics; the main thread takes it from there.
A version, odd while the callback stores, tells the main thread when to leave the atomics
alone.  Every step is one atomic operation; the atomics are sequentially consistent.

Floating-point numbers are given by their bits, and what is computed from them is a parameter.
-/

namespace Gpui

open Library

/-- The bits of an `f64`. -/
abbrev F64 := UInt64

namespace F64

def isFinite (self : F64) : Bool :=
  self &&& 0x7FF0000000000000 ≠ 0x7FF0000000000000

/-- `self > 0.0`: no sign, no zero, no NaN. -/
def isPositive (self : F64) : Bool :=
  0 < self && self ≤ 0x7FF0000000000000

end F64

/-- What the callback reads of a `CVTimeStamp`. -/
structure CVTimeStamp where
  videoTimeScale : Int32
  hostTime : UInt64
  rateScalar : F64
  videoRefreshPeriod : Int64
  flags : UInt64
deriving DecidableEq

namespace CVTimeStamp

def hostTimeValid : UInt64 := (1 : UInt64) <<< 1
def videoRefreshPeriodValid : UInt64 := (1 : UInt64) <<< 3
def rateScalarValid : UInt64 := (1 : UInt64) <<< 4

def isHostTimeValid (self : CVTimeStamp) : Bool :=
  self.flags &&& hostTimeValid ≠ 0

def isRefreshValid (self : CVTimeStamp) : Bool :=
  self.flags &&& videoRefreshPeriodValid ≠ 0 && self.flags &&& rateScalarValid ≠ 0 &&
    0 < self.videoRefreshPeriod && 0 < self.videoTimeScale && F64.isFinite self.rateScalar &&
    F64.isPositive self.rateScalar

end CVTimeStamp

/-- What one call of the callback is given, and the time it takes itself. -/
structure LinkTimes where
  currentTime : Option CVTimeStamp
  outputTime : Option CVTimeStamp
  callbackHostTime : UInt64
deriving DecidableEq

/-! ## What is stored and what is read back -/

/-- The `latest_` atomics but for the tick's id, in the order in which they are stored and
read. -/
inductive TickAtomic where
  | callbackHostTime
  | currentHostTime
  | outputHostTime
  | videoRefreshPeriod
  | videoTimeScale
  | rateScalarBits
  | currentValid
  | outputValid
  | refreshValid
deriving DecidableEq, Repr

namespace TickAtomic

def Value : TickAtomic → Type
  | callbackHostTime | currentHostTime | outputHostTime | videoRefreshPeriod | videoTimeScale
  | rateScalarBits => UInt64
  | currentValid | outputValid | refreshValid => Bool

def all : List TickAtomic :=
  [callbackHostTime, currentHostTime, outputHostTime, videoRefreshPeriod, videoTimeScale,
    rateScalarBits, currentValid, outputValid, refreshValid]

theorem mem_all (atomic : TickAtomic) : atomic ∈ all := by
  cases atomic <;> decide

/-- What the atomics hold at first. -/
def initial : (atomic : TickAtomic) → atomic.Value
  | callbackHostTime | currentHostTime | outputHostTime | videoRefreshPeriod | videoTimeScale
  | rateScalarBits => (0 : UInt64)
  | currentValid | outputValid | refreshValid => false

end TickAtomic

/-- `Int32 as u64` extends the sign. -/
def LinkTimes.stored (self : LinkTimes) : (atomic : TickAtomic) → atomic.Value
  | .callbackHostTime => self.callbackHostTime
  | .currentHostTime => (self.currentTime.elim 0 CVTimeStamp.hostTime : UInt64)
  | .outputHostTime => (self.outputTime.elim 0 CVTimeStamp.hostTime : UInt64)
  | .videoRefreshPeriod =>
      (self.outputTime.elim 0 fun time => time.videoRefreshPeriod.toUInt64 : UInt64)
  | .videoTimeScale =>
      (self.outputTime.elim 0 fun time => time.videoTimeScale.toInt64.toUInt64 : UInt64)
  | .rateScalarBits => (self.outputTime.elim 0 CVTimeStamp.rateScalar : UInt64)
  | .currentValid => self.currentTime.any CVTimeStamp.isHostTimeValid
  | .outputValid => self.outputTime.any CVTimeStamp.isHostTimeValid
  | .refreshValid => self.outputTime.any CVTimeStamp.isRefreshValid

structure DisplayLinkTraceSnapshot where
  callbackHostTime : UInt64
  currentHostTimeRaw : UInt64
  outputHostTimeRaw : UInt64
  videoRefreshPeriod : Int64
  videoTimeScale : Int32
  rateScalar : F64
  currentValid : Bool
  outputValid : Bool
  refreshValid : Bool
  sequence : UInt64
  callbackCount : UInt64
deriving DecidableEq

namespace DisplayLinkTraceSnapshot

/-- A snapshot of values read from the atomics. -/
def ofRead (read : (atomic : TickAtomic) → atomic.Value) (sequence callbackCount : UInt64) :
    DisplayLinkTraceSnapshot where
  callbackHostTime := read .callbackHostTime
  currentHostTimeRaw := read .currentHostTime
  outputHostTimeRaw := read .outputHostTime
  videoRefreshPeriod := UInt64.toInt64 (read .videoRefreshPeriod)
  videoTimeScale := (UInt64.toInt64 (read .videoTimeScale)).toInt32
  rateScalar := read .rateScalarBits
  currentValid := read .currentValid
  outputValid := read .outputValid
  refreshValid := read .refreshValid
  sequence
  callbackCount

/-- The snapshot that one call of the callback means to publish. -/
def ofTimes (times : LinkTimes) (sequence callbackCount : UInt64) :
    DisplayLinkTraceSnapshot where
  callbackHostTime := times.callbackHostTime
  currentHostTimeRaw := times.currentTime.elim 0 CVTimeStamp.hostTime
  outputHostTimeRaw := times.outputTime.elim 0 CVTimeStamp.hostTime
  videoRefreshPeriod := times.outputTime.elim 0 CVTimeStamp.videoRefreshPeriod
  videoTimeScale := times.outputTime.elim 0 CVTimeStamp.videoTimeScale
  rateScalar := times.outputTime.elim 0 CVTimeStamp.rateScalar
  currentValid := times.currentTime.any CVTimeStamp.isHostTimeValid
  outputValid := times.outputTime.any CVTimeStamp.isHostTimeValid
  refreshValid := times.outputTime.any CVTimeStamp.isRefreshValid
  sequence
  callbackCount

theorem ofRead_stored (times : LinkTimes) (sequence callbackCount : UInt64) :
    ofRead times.stored sequence callbackCount = ofTimes times sequence callbackCount := by
  rcases times with ⟨currentTime, outputTime, callbackHostTime⟩
  cases outputTime <;> simp [ofRead, ofTimes, LinkTimes.stored]

end DisplayLinkTraceSnapshot

/-! ## The delivered tick -/

structure FrameTraceDisplayTick where
  displayId : UInt32
  sequence : UInt64
  workerCallbackTimeNs : UInt64
  currentHostTimeRaw : UInt64
  outputHostTimeRaw : UInt64
  videoRefreshPeriod : Int64
  videoTimeScale : Int32
  rateScalar : F64
  refreshPeriodNs : UInt64
  mainQueueDeliveryTimeNs : UInt64
  coalescedCount : UInt64
  flags : UInt64
deriving DecidableEq

def flagDisplayTargetInvalid : UInt64 := (1 : UInt64) <<< 5
def flagDisplayCurrentInvalid : UInt64 := (1 : UInt64) <<< 12
def flagDisplayRefreshInvalid : UInt64 := (1 : UInt64) <<< 13

/-- The timebase of the host clock, and the refresh period that floating-point arithmetic
gives for a period, a time scale and a rate. -/
structure TickClock where
  numer : UInt32
  denom : UInt32
  refreshPeriodNs : Int64 → Int32 → F64 → UInt64

namespace TickClock

def machTicksToNs (self : TickClock) (ticks : UInt64) : UInt64 :=
  if self.denom = 0 then 0
  else .ofNat (min (ticks.toNat * self.numer.toNat / self.denom.toNat) (2 ^ 64 - 1))

end TickClock

def frameTraceDelivery (clock : TickClock) (displayId : UInt32)
    (snapshot : DisplayLinkTraceSnapshot)
    (lastDeliveredCallbackCount mainQueueDeliveryTimeNs : UInt64) :
    Option FrameTraceDisplayTick :=
  if snapshot.callbackCount = lastDeliveredCallbackCount then none
  else
    let refreshPeriodNs := if snapshot.refreshValid then
      clock.refreshPeriodNs snapshot.videoRefreshPeriod snapshot.videoTimeScale
        snapshot.rateScalar else 0
    some {
      displayId
      sequence := snapshot.sequence
      workerCallbackTimeNs := clock.machTicksToNs snapshot.callbackHostTime
      currentHostTimeRaw := snapshot.currentHostTimeRaw
      outputHostTimeRaw := snapshot.outputHostTimeRaw
      videoRefreshPeriod := snapshot.videoRefreshPeriod
      videoTimeScale := snapshot.videoTimeScale
      rateScalar := snapshot.rateScalar
      refreshPeriodNs
      mainQueueDeliveryTimeNs
      coalescedCount := saturatingSub snapshot.callbackCount lastDeliveredCallbackCount
      flags :=
        (if snapshot.currentValid then 0 else flagDisplayCurrentInvalid) |||
          (if snapshot.outputValid then 0 else flagDisplayTargetInvalid) |||
          (if snapshot.refreshValid ∧ refreshPeriodNs ≠ 0 then 0
            else flagDisplayRefreshInvalid) }

/-! ## The two threads -/

structure DisplayLinkCallbackState where
  displayId : UInt32
  snapshotVersion : UInt64
  latest : (atomic : TickAtomic) → atomic.Value
  latestTickSequenceId : UInt64
  callbackCount : UInt64

/-- Where the callback is: what it stores next, or between two calls. -/
inductive LinkCallback where
  | idle
  | storing (times : LinkTimes) (atomics : List TickAtomic)
  | storingSequence (times : LinkTimes) (sequence : UInt64)
  | counting (times : LinkTimes) (sequence : UInt64)
  | publishing (times : LinkTimes) (sequence : UInt64)

/-- Where `take_trace_delivery` is: what it loads next, and what it has read. -/
inductive LinkReader where
  | idle
  | reading (versionBefore : UInt64) (atomics : List TickAtomic)
      (read : (atomic : TickAtomic) → atomic.Value)
  | counting (versionBefore : UInt64) (read : (atomic : TickAtomic) → atomic.Value)
      (sequence : UInt64)
  | checking (versionBefore : UInt64) (snapshot : DisplayLinkTraceSnapshot)

structure DisplayLink where
  callbackState : DisplayLinkCallbackState
  lastDeliveredCallbackCount : UInt64
  /-- The ids of ticks are the process's, not the link's. -/
  nextDisplayTickSequenceId : UInt64
  callback : LinkCallback
  reader : LinkReader
  /-- The calls that are over, with their ids, and the ticks delivered, which no code reads. -/
  calls : List (LinkTimes × UInt64)
  delivered : List FrameTraceDisplayTick

inductive DisplayLinkEvent where
  /-- CoreVideo calls the callback, which increments the version. -/
  | call (times : LinkTimes)
  /-- The callback's next operation. -/
  | store
  /-- `take_trace_delivery` is called and loads the version. -/
  | take
  /-- Its next operation; the time is the one it takes for a tick. -/
  | load (mainQueueDeliveryTimeNs : UInt64)
  /-- The callback of another link takes an id. -/
  | otherLink
deriving DecidableEq

namespace DisplayLink

def new (displayId : UInt32) : DisplayLink where
  callbackState := ⟨displayId, 0, TickAtomic.initial, 0, 0⟩
  lastDeliveredCallbackCount := 0
  nextDisplayTickSequenceId := 0
  callback := .idle
  reader := .idle
  calls := []
  delivered := []

def call (self : DisplayLink) (times : LinkTimes) : Option DisplayLink :=
  match self.callback with
  | .idle =>
      let version := self.callbackState.snapshotVersion
      some { self with
        callbackState := { self.callbackState with snapshotVersion := version + 1 }
        callback := .storing times TickAtomic.all }
  | _ => none

def store (self : DisplayLink) : Option DisplayLink :=
  let state := self.callbackState
  match self.callback with
  | .idle => none
  | .storing times (atomic :: atomics) =>
      some { self with
        callbackState := { state with
          latest := Function.update state.latest atomic (times.stored atomic) }
        callback := .storing times atomics }
  | .storing times [] =>
      let sequence := self.nextDisplayTickSequenceId + 1
      some { self with
        nextDisplayTickSequenceId := sequence
        callback := .storingSequence times sequence }
  | .storingSequence times sequence =>
      some { self with
        callbackState := { state with latestTickSequenceId := sequence }
        callback := .counting times sequence }
  | .counting times sequence =>
      some { self with
        callbackState := { state with callbackCount := state.callbackCount + 1 }
        callback := .publishing times sequence }
  | .publishing times sequence =>
      some { self with
        callbackState := { state with snapshotVersion := state.snapshotVersion + 1 }
        callback := .idle
        calls := self.calls ++ [(times, sequence)] }

def take (self : DisplayLink) : Option DisplayLink :=
  match self.reader with
  | .idle =>
      let versionBefore := self.callbackState.snapshotVersion
      if versionBefore &&& 1 ≠ 0 then some self
      else some { self with
        reader := .reading versionBefore TickAtomic.all TickAtomic.initial }
  | _ => none

def load (self : DisplayLink) (clock : TickClock) (mainQueueDeliveryTimeNs : UInt64) :
    Option DisplayLink :=
  let state := self.callbackState
  match self.reader with
  | .idle => none
  | .reading versionBefore (atomic :: atomics) read =>
      some { self with
        reader := .reading versionBefore atomics
          (Function.update read atomic (state.latest atomic)) }
  | .reading versionBefore [] read =>
      some { self with reader := .counting versionBefore read state.latestTickSequenceId }
  | .counting versionBefore read sequence =>
      some { self with
        reader := .checking versionBefore (.ofRead read sequence state.callbackCount) }
  | .checking versionBefore snapshot =>
      if versionBefore ≠ state.snapshotVersion then some { self with reader := .idle }
      else
        match frameTraceDelivery clock state.displayId snapshot self.lastDeliveredCallbackCount
            mainQueueDeliveryTimeNs with
        | none => some { self with reader := .idle }
        | some tick =>
            some { self with
              reader := .idle
              lastDeliveredCallbackCount := snapshot.callbackCount
              delivered := self.delivered ++ [tick] }

def step (clock : TickClock) (self : DisplayLink) : DisplayLinkEvent → Option DisplayLink
  | .call times => self.call times
  | .store => self.store
  | .take => self.take
  | .load mainQueueDeliveryTimeNs => self.load clock mainQueueDeliveryTimeNs
  | .otherLink =>
      some { self with nextDisplayTickSequenceId := self.nextDisplayTickSequenceId + 1 }

end DisplayLink

end Gpui
