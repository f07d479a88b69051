import Gpui.FrameTrace.Writes
import Gpui.Library.Transition

/-!
# Calls on the trace buffer

The writer state counts the calls that are registered, and its top bit turns away those that
come later.  So when the one that stops the trace finds nobody registered it is alone with
the ring.  Each step keeps what holds of the ring, the calls and the stop.
-/

namespace Gpui

open Library

variable {E : Type}

namespace RecordCall

/-- The writer of a call that is in `write_registered`. -/
def writer (number : Nat) (call : RecordCall E) : Option (TraceWriter E) :=
  match call.pc with
  | .writing pc => some ⟨some number, call.event, pc⟩
  | _ => none

/-- The call is registered and has not left. -/
def isActive (call : RecordCall E) : Bool :=
  match call.pc with
  | .returned _ => false
  | _ => true

theorem caller_writer {number : Nat} {call : RecordCall E} {writer : TraceWriter E}
    (is : call.writer number = some writer) : writer.caller = some number := by
  unfold RecordCall.writer at is
  cases at_ : call.pc with
  | writing _ =>
      rw [at_] at is
      cases is
      rfl
  | _ =>
      rw [at_] at is
      cases is

end RecordCall

def StopStep.writer : StopStep E → Option (TraceWriter E)
  | .writing event pc => some ⟨none, event, pc⟩
  | _ => none

namespace FrameTraceBuffer

/-- The writers among calls, whose numbers begin at `first`. -/
def recordingFrom (first : Nat) (calls : List (RecordCall E)) : List (TraceWriter E) :=
  (calls.zipIdx first).filterMap fun entry => entry.1.writer entry.2

def recording (calls : List (RecordCall E)) : Multiset (TraceWriter E) :=
  (recordingFrom 0 calls : List (TraceWriter E))

def ofOption {α : Type} (value : Option α) : Multiset α :=
  (value.toList : List α)

/-- All that are in `write_registered`. -/
def writers (buffer : FrameTraceBuffer E) : Multiset (TraceWriter E) :=
  ofOption buffer.stop.writer + recording buffer.calls

def active (calls : List (RecordCall E)) : Nat :=
  calls.countP RecordCall.isActive

/-! ## The writers among the calls -/

theorem recording_append (calls : List (RecordCall E)) (call : RecordCall E) :
    recording (calls ++ [call]) = ofOption (call.writer calls.length) + recording calls := by
  have listed : recordingFrom 0 (calls ++ [call]) =
      recordingFrom 0 calls ++ (call.writer calls.length).toList := by
    rw [recordingFrom, List.zipIdx_append, List.filterMap_append, Nat.zero_add,
      List.zipIdx_singleton, List.filterMap_cons]
    cases writer : call.writer calls.length <;> rfl
  rw [recording, listed, ← Multiset.coe_add, add_comm]
  rfl

/-- A call of a list divides it. -/
theorem exists_split {calls : List (RecordCall E)} {number : Nat} {call : RecordCall E}
    (found : calls[number]? = some call) :
    ∃ front back, calls = front ++ call :: back ∧ front.length = number ∧
      ∀ other, calls.set number other = front ++ other :: back := by
  rcases List.getElem?_eq_some_iff.mp found with ⟨bound, rfl⟩
  refine ⟨calls.take number, calls.drop (number + 1), ?_, ?_, ?_⟩
  · rw [List.getElem_cons_drop, List.take_append_drop]
  · rw [List.length_take, Nat.min_eq_left bound.le]
  · intro other
    rw [List.set_eq_take_append_cons_drop, if_pos bound]

theorem recording_split (front back : List (RecordCall E)) (call : RecordCall E) :
    recording (front ++ call :: back) = ofOption (call.writer front.length) +
      (recordingFrom 0 front ++ recordingFrom (front.length + 1) back : List (TraceWriter E)) := by
  have listed : recordingFrom 0 (front ++ call :: back) =
      recordingFrom 0 front ++ ((call.writer front.length).toList ++
        recordingFrom (front.length + 1) back) := by
    rw [recordingFrom, List.zipIdx_append, List.filterMap_append, Nat.zero_add,
      List.zipIdx_cons, List.filterMap_cons]
    cases writer : call.writer front.length <;> rfl
  rw [recording, listed, ofOption, Multiset.coe_add, Multiset.coe_eq_coe, ← List.append_assoc,
    ← List.append_assoc]
  exact List.perm_append_comm.append_right _

/-- One call among the writers, whatever it does next. -/
theorem exists_recording_set {calls : List (RecordCall E)} {number : Nat} {call : RecordCall E}
    (found : calls[number]? = some call) :
    ∃ others, recording calls = ofOption (call.writer number) + others ∧
      ∀ next, recording (calls.set number next) = ofOption (next.writer number) + others := by
  rcases exists_split found with ⟨front, back, split, rfl, sets⟩
  refine ⟨(recordingFrom 0 front ++ recordingFrom (front.length + 1) back :
    List (TraceWriter E)), ?_, ?_⟩
  · rw [split]
    exact recording_split front back call
  · intro next
    rw [sets]
    exact recording_split front back next

theorem active_append (calls : List (RecordCall E)) (event : E) (pc : RecordStep)
    (registered : (RecordCall.mk event pc).isActive = true) :
    active (calls ++ [⟨event, pc⟩]) = active calls + 1 := by
  rw [active, List.countP_append, List.countP_singleton, if_pos registered]
  rfl

theorem active_set {calls : List (RecordCall E)} {number : Nat} {call next : RecordCall E}
    (found : calls[number]? = some call) (registered : call.isActive = true) :
    active (calls.set number next) + 1 =
      active calls + if next.isActive = true then 1 else 0 := by
  rcases exists_split found with ⟨front, back, split, _, sets⟩
  rw [sets, split, active, active, List.countP_append, List.countP_append, List.countP_cons,
    List.countP_cons, if_pos registered]
  omega

theorem exists_of_mem_recording {calls : List (RecordCall E)} {writer : TraceWriter E}
    (member : writer ∈ recording calls) :
    ∃ number, ∃ call : RecordCall E, calls[number]? = some call ∧
      call.writer number = some writer := by
  rcases List.mem_filterMap.mp (Multiset.mem_coe.mp member) with ⟨⟨call, number⟩, listed, is⟩
  exact ⟨number, call, List.mem_zipIdx_iff_getElem?.mp listed, is⟩

theorem recording_eq_zero {calls : List (RecordCall E)} (none : active calls = 0) :
    recording calls = 0 := by
  rw [Multiset.eq_zero_iff_forall_notMem]
  intro writer member
  rcases exists_of_mem_recording member with ⟨number, call, found, is⟩
  have idle := List.countP_eq_zero.mp none call (List.mem_of_getElem? found)
  unfold RecordCall.writer at is
  unfold RecordCall.isActive at idle
  cases at_ : call.pc with
  | writing _ =>
      rw [at_] at idle
      exact idle rfl
  | _ =>
      rw [at_] at is
      cases is

/-! ## What holds at any time -/

/-- The events of the slots that have one. -/
def copied (slots : List (FrameTraceSlot E)) : List (FrameTraceEvent E) :=
  slots.filterMap fun slot => if slot.sequence &&& sequenceMask = 0 then none else some slot.event

/-- The call that stops the trace is alone with the ring, and has written its event. -/
structure Finished (ring : FrameTraceRing E) (calls : List (RecordCall E))
    (stopped : Option (Nat × E)) : Prop where
  alone : recording calls = 0
  settled : ∃ limit event, stopped = some (limit, event) ∧ ring.Settled event

/-- What a snapshot is taken from. -/
structure TakenFrom (ring : FrameTraceRing E) (snapshot : FrameTraceSnapshot E) : Prop where
  capacity : snapshot.capacity = ring.slots.length
  events : snapshot.events = sortedEvents (copied ring.slots)
  overwritten : snapshot.overwrittenEvents =
    saturatingSub ring.publishedEvents (.ofNat snapshot.events.length)
  superseded : snapshot.supersededWrites = ring.supersededWrites
  contended : snapshot.contendedWrites = ring.contendedWrites

def StopOk (ring : FrameTraceRing E) (calls : List (RecordCall E)) (stopped : Option (Nat × E)) :
    StopStep E → Prop
  | .idle | .stopping _ => stopped = none ∧ none ∉ ring.reserved.map Prod.fst
  | .waiting event =>
      (∃ limit, stopped = some (limit, event)) ∧ none ∉ ring.reserved.map Prod.fst
  | .writing event pc =>
      (∃ limit, stopped = some (limit, event)) ∧ recording calls = 0 ∧
        ring.StopWriteOk event pc
  | .counting => Finished ring calls stopped
  | .copying publishedEvents index events =>
      Finished ring calls stopped ∧ publishedEvents = ring.publishedEvents ∧
        events = copied (ring.slots.take index)
  | .contending publishedEvents supersededWrites events =>
      Finished ring calls stopped ∧ publishedEvents = ring.publishedEvents ∧
        supersededWrites = ring.supersededWrites ∧ events = sortedEvents (copied ring.slots)
  | .returned snapshot => Finished ring calls stopped ∧ TakenFrom ring snapshot

/-- Every id taken by a call of `record` was taken for its event, and if the trace has been
stopped by a call that had begun before. -/
structure Recorded (ring : FrameTraceRing E) (calls : List (RecordCall E))
    (stopped : Option (Nat × E)) : Prop where
  event : ∀ {number content}, (some number, content) ∈ ring.reserved →
    ∃ call, calls[number]? = some call ∧ call.event = content
  early : ∀ {number content limit event}, (some number, content) ∈ ring.reserved →
    stopped = some (limit, event) → number < limit
  writing : ∀ {number : Nat} {call : RecordCall E} {writer limit event},
    calls[number]? = some call → call.writer number = some writer →
      stopped = some (limit, event) → number < limit

structure BufferOk (buffer : FrameTraceBuffer E) : Prop where
  ring : buffer.ring.RingOk (writers buffer)
  state : buffer.writerState.toNat =
    active buffer.calls + if buffer.stopped.isSome = true then 2 ^ 63 else 0
  recorded : Recorded buffer.ring buffer.calls buffer.stopped
  claimed : buffer.snapshotClaimed = false → buffer.stop = .idle
  stop : StopOk buffer.ring buffer.calls buffer.stopped buffer.stop

variable {buffer next : FrameTraceBuffer E}

theorem bufferOk_new (capacity : Nat) (uninit : FrameTraceEvent E) (runIdHash : UInt64) :
    BufferOk (new capacity uninit runIdHash) where
  ring := FrameTraceRing.ringOk_new capacity uninit
  state := rfl
  recorded := ⟨(by cases ·), (by cases ·), (by cases ·)⟩
  claimed _ := rfl
  stop := ⟨rfl, fun member => by cases member⟩

theorem active_le (calls : List (RecordCall E)) : active calls ≤ calls.length :=
  List.countP_le_length

/-- While the trace is being stopped, no call that begins is let in. -/
theorem isTurnedAway_of_stopped {previous : UInt64} (stopped : 2 ^ 63 ≤ previous.toNat) :
    isTurnedAway previous = true := by
  have set : previous &&& (writerStopBit ||| writerOverflowBit) ≠ 0 := by
    intro clear
    have top : (writerStopBit ||| writerOverflowBit) &&& topBit = topBit := by decide
    have none : previous &&& topBit = 0 := by
      rw [← top, ← UInt64.and_assoc, clear]
      rfl
    exact absurd (and_topBit_eq_zero_iff.1 none) (not_lt.mpr stopped)
  rw [isTurnedAway, decide_eq_true set]
  rfl

/-- Each call takes one id at most, so there are no more ids than calls. -/
theorem BufferOk.reserved_lt (ok : BufferOk buffer) (bound : buffer.calls.length + 1 < 2 ^ 63)
    {caller : Option Nat} (fresh : caller ∉ buffer.ring.reserved.map Prod.fst)
    (known : ∀ number, caller = some number → number < buffer.calls.length) :
    buffer.ring.reserved.length + 1 < 2 ^ 63 := by
  have distinct : (caller :: buffer.ring.reserved.map Prod.fst).Nodup :=
    List.nodup_cons.mpr ⟨fresh, ok.ring.once⟩
  have among : (caller :: buffer.ring.reserved.map Prod.fst) ⊆
      none :: (List.range buffer.calls.length).map some := by
    intro other member
    cases other with
    | none => exact List.mem_cons_self
    | some number =>
        apply List.mem_cons_of_mem
        rw [List.mem_map_of_injective (Option.some_injective _), List.mem_range]
        rcases List.mem_cons.mp member with same | member
        · exact known number same.symm
        · rcases List.mem_map.mp member with ⟨⟨_, content⟩, taken, rfl⟩
          rcases ok.recorded.event taken with ⟨call, found, _⟩
          exact (List.getElem?_eq_some_iff.mp found).1
  have fewer := (distinct.subperm among).length_le
  simp only [List.length_cons, List.length_map, List.length_range] at fewer
  omega

/-- The call that stops the trace does not mind what calls that do not write do. -/
theorem StopOk.of_calls {ring : FrameTraceRing E} {calls later : List (RecordCall E)}
    {stopped : Option (Nat × E)} {stop : StopStep E} (ok : StopOk ring calls stopped stop)
    (alone : stopped.isSome = true → recording calls = 0 → recording later = 0) :
    StopOk ring later stopped stop := by
  have finished : Finished ring calls stopped → Finished ring later stopped := by
    rintro ⟨none, limit, event, rfl, settled⟩
    exact ⟨alone rfl none, limit, event, rfl, settled⟩
  cases stop with
  | idle | stopping _ | waiting _ => exact ok
  | writing event pc =>
      rcases ok with ⟨⟨limit, rfl⟩, none, writing⟩
      exact ⟨⟨limit, rfl⟩, alone rfl none, writing⟩
  | counting => exact finished ok
  | copying _ _ _ | contending _ _ _ | returned _ => exact ⟨finished ok.1, ok.2⟩

theorem mem_ofOption {α : Type} {value : Option α} {item : α} :
    item ∈ ofOption value ↔ value = some item := by
  rw [ofOption, Multiset.mem_coe, Option.mem_toList]

/-- A call that begins gets a number of its own. -/
theorem BufferOk.caller_new (ok : BufferOk buffer) :
    some buffer.calls.length ∉ (writers buffer).map TraceWriter.caller ∧
      some buffer.calls.length ∉ buffer.ring.reserved.map Prod.fst := by
  constructor
  · intro member
    rcases Multiset.mem_map.mp member with ⟨writer, member, same⟩
    rcases Multiset.mem_add.mp member with stops | records
    · have is := mem_ofOption.1 stops
      unfold StopStep.writer at is
      cases at_ : buffer.stop with
      | writing _ _ =>
          rw [at_] at is
          cases is
          cases same
      | _ =>
          rw [at_] at is
          cases is
    · rcases exists_of_mem_recording records with ⟨number, call, found, is⟩
      rw [RecordCall.caller_writer is, Option.some.injEq] at same
      exact absurd (List.getElem?_eq_some_iff.mp found).1 (by omega)
  · intro member
    rcases List.mem_map.mp member with ⟨⟨_, content⟩, taken, same⟩
    cases same
    rcases ok.recorded.event taken with ⟨call, found, _⟩
    exact absurd (List.getElem?_eq_some_iff.mp found).1 (lt_irrefl _)

theorem Recorded.append {ring : FrameTraceRing E} {calls : List (RecordCall E)}
    {stopped : Option (Nat × E)} {call : RecordCall E} (ok : Recorded ring calls stopped)
    (rejected : stopped.isSome = true → call.writer calls.length = none) :
    Recorded ring (calls ++ [call]) stopped where
  event taken := by
    rcases ok.event taken with ⟨held, found, same⟩
    refine ⟨held, ?_, same⟩
    rw [List.getElem?_append_left (List.getElem?_eq_some_iff.mp found).1]
    exact found
  early := ok.early
  writing {number held writer limit event} found is stops := by
    rcases Nat.lt_or_ge number calls.length with old | new
    · rw [List.getElem?_append_left old] at found
      exact ok.writing found is stops
    · rw [List.getElem?_append_right new, List.getElem?_singleton] at found
      split_ifs at found with first
      cases found
      have same : number = calls.length := by omega
      rw [same, rejected (by rw [stops]; rfl)] at is
      cases is

theorem BufferOk.record {event : E} (ok : BufferOk buffer)
    (bound : buffer.calls.length + 1 < 2 ^ 63) : BufferOk (buffer.record event) := by
  have registered : ∀ pc, pc = .rejected ∨ pc = .writing .reserve →
      (RecordCall.mk event pc).isActive = true := by
    rintro _ (rfl | rfl) <;> rfl
  have fewer := active_le buffer.calls
  have state : (buffer.writerState + 1).toNat = buffer.writerState.toNat + 1 := by
    apply toNat_add_one
    rw [ok.state]
    split_ifs <;> omega
  have rejects : buffer.stopped.isSome = true → isTurnedAway buffer.writerState = true := by
    intro stopped
    apply isTurnedAway_of_stopped
    rw [ok.state, if_pos stopped]
    exact Nat.le_add_left _ _
  by_cases turned : isTurnedAway buffer.writerState = true
  · have same : recording (buffer.calls ++ [⟨event, .rejected⟩]) = recording buffer.calls := by
      rw [recording_append]
      exact zero_add _
    have becomes : buffer.record event = { buffer with
        writerState := buffer.writerState + 1
        calls := buffer.calls ++ [⟨event, .rejected⟩] } := by
      rw [FrameTraceBuffer.record, if_pos turned]
    rw [becomes]
    exact {
      ring := by
        rw [writers, same]
        exact ok.ring
      state := by
        rw [active_append _ _ _ (registered _ (Or.inl rfl))]
        show (buffer.writerState + 1).toNat = _
        rw [state, ok.state, Nat.add_right_comm]
      recorded := ok.recorded.append fun _ => rfl
      claimed := ok.claimed
      stop := ok.stop.of_calls fun _ none => same.trans none }
  · have running : buffer.stopped.isSome ≠ true := fun stopped => turned (rejects stopped)
    have becomes : buffer.record event = { buffer with
        writerState := buffer.writerState + 1
        calls := buffer.calls ++ [⟨event, .writing .reserve⟩] } := by
      rw [FrameTraceBuffer.record, if_neg turned]
    rw [becomes]
    exact {
      ring := by
        rw [writers, recording_append, ← add_assoc, add_comm (ofOption buffer.stop.writer),
          add_assoc]
        exact ok.ring.begins ok.caller_new.1 ok.caller_new.2
      state := by
        rw [active_append _ _ _ (registered _ (Or.inr rfl))]
        show (buffer.writerState + 1).toNat = _
        rw [state, ok.state, Nat.add_right_comm]
      recorded := ok.recorded.append fun stopped => absurd stopped running
      claimed := ok.claimed
      stop := ok.stop.of_calls fun stopped => absurd stopped running }

/-- A call of `record` keeps its event. -/
theorem Recorded.of_set {ring after : FrameTraceRing E} {calls : List (RecordCall E)}
    {stopped : Option (Nat × E)} {number : Nat} {call : RecordCall E} {pc : RecordStep}
    (ok : Recorded ring calls stopped) (found : calls[number]? = some call)
    (taken : ∀ entry ∈ after.reserved, entry ∈ ring.reserved ∨
      entry = (some number, call.event) ∧ ∃ writer, call.writer number = some writer)
    (writes : ∀ writer, (RecordCall.mk call.event pc).writer number = some writer →
      ∃ writer, call.writer number = some writer) :
    Recorded after (calls.set number { call with pc }) stopped := by
  rcases List.getElem?_eq_some_iff.mp found with ⟨bound, _⟩
  constructor
  · intro other content member
    have held : ∃ call, calls[other]? = some call ∧ call.event = content := by
      rcases taken _ member with old | ⟨same, _⟩
      · exact ok.event old
      · cases same
        exact ⟨call, found, rfl⟩
    rcases held with ⟨old, found', same⟩
    by_cases here : other = number
    · subst here
      rw [found] at found'
      cases found'
      exact ⟨_, List.getElem?_set_self bound, same⟩
    · exact ⟨old, by rw [List.getElem?_set_ne (Ne.symm here)]; exact found', same⟩
  · intro other content limit event member stops
    rcases taken _ member with old | ⟨same, writer, is⟩
    · exact ok.early old stops
    · cases same
      exact ok.writing found is stops
  · intro other held writer limit event found' is stops
    by_cases here : other = number
    · subst here
      rw [List.getElem?_set_self bound] at found'
      cases found'
      rcases writes writer is with ⟨before, was⟩
      exact ok.writing found was stops
    · rw [List.getElem?_set_ne (Ne.symm here)] at found'
      exact ok.writing found' is stops

/-- A call that does not write leaves. -/
theorem BufferOk.returns {number : Nat} {call : RecordCall E} {published : Bool}
    (ok : BufferOk buffer) (found : buffer.calls[number]? = some call)
    (registered : call.isActive = true) (idle : call.writer number = none) :
    BufferOk { buffer with
      writerState := buffer.writerState - 1
      calls := buffer.calls.set number { call with pc := .returned published } } := by
  have same : recording (buffer.calls.set number { call with pc := .returned published }) =
      recording buffer.calls := by
    rcases exists_recording_set found with ⟨others, before, after⟩
    rw [after, before, idle]
    rfl
  have counted : active (buffer.calls.set number { call with pc := .returned published }) + 1 =
      active buffer.calls + 0 :=
    active_set found registered
  have state : (buffer.writerState - 1).toNat = buffer.writerState.toNat - 1 := by
    apply toNat_sub_one
    rw [ok.state]
    omega
  exact {
    ring := by
      rw [writers, same]
      exact ok.ring
    state := by
      show (buffer.writerState - 1).toNat = active (buffer.calls.set _ _) +
        if buffer.stopped.isSome = true then 2 ^ 63 else 0
      rw [state, ok.state]
      omega
    recorded := by
      apply ok.recorded.of_set found
      · exact fun entry member => Or.inl member
      · intro writer is
        cases is
    claimed := ok.claimed
    stop := ok.stop.of_calls fun _ none => same.trans none }

/-- A call writes on. -/
theorem BufferOk.writes {number : Nat} {call : RecordCall E} {pc : WriteStep}
    {ring : FrameTraceRing E} {result : WriteStep ⊕ Bool} (ok : BufferOk buffer)
    (bound : buffer.calls.length + 1 < 2 ^ 63)
    (found : buffer.calls[number]? = some call) (at_ : call.pc = .writing pc)
    (steps : buffer.ring.advance ⟨some number, call.event, pc⟩ = some (ring, result)) :
    BufferOk { buffer with
      ring
      calls := buffer.calls.set number { call with pc := result.elim .writing .leaving } } := by
  have is : call.writer number = some ⟨some number, call.event, pc⟩ := by
    rw [RecordCall.writer, at_]
  have registered : call.isActive = true := by
    rw [RecordCall.isActive, at_]
  have stays : (RecordCall.mk call.event (result.elim .writing .leaving)).isActive = true := by
    cases result <;> rfl
  rcases exists_recording_set found with ⟨others, before, after⟩
  have notAlone : recording buffer.calls ≠ 0 := by
    rw [before, is]
    exact fun none => Multiset.cons_ne_zero none
  have counted : active (buffer.calls.set number
      { call with pc := result.elim .writing .leaving }) + 1 = active buffer.calls + 1 := by
    rw [active_set found registered, if_pos stays]
  have own : writers buffer = ⟨some number, call.event, pc⟩ ::ₘ
      (ofOption buffer.stop.writer + others) := by
    rw [writers, before, is, ← add_assoc, add_comm (ofOption buffer.stop.writer), add_assoc]
    rfl
  have before' := ok.ring
  rw [own] at before'
  have room : pc = .reserve → buffer.ring.reserved.length + 1 < 2 ^ 63 := by
    intro reserves
    apply ok.reserved_lt bound
    · exact before'.before _ (Multiset.mem_cons_self _ _) reserves
    · intro other same
      cases same
      exact (List.getElem?_eq_some_iff.mp found).1
  exact {
    ring := by
      have stepped := before'.advance room steps
      cases result with
      | inl pc' =>
          have after' : ring.RingOk (⟨some number, call.event, pc'⟩ ::ₘ
              (ofOption buffer.stop.writer + others)) :=
            stepped
          have own' : ofOption buffer.stop.writer +
              recording (buffer.calls.set number { call with pc := .writing pc' }) =
                ⟨some number, call.event, pc'⟩ ::ₘ (ofOption buffer.stop.writer + others) := by
            rw [after, ← add_assoc, add_comm (ofOption buffer.stop.writer), add_assoc]
            rfl
          rw [← own'] at after'
          exact after'
      | inr published =>
          have after' : ring.RingOk (ofOption buffer.stop.writer + others) := stepped
          have own' : ofOption buffer.stop.writer +
              recording (buffer.calls.set number { call with pc := .leaving published }) =
                ofOption buffer.stop.writer + others := by
            rw [after]
            exact congrArg _ (zero_add others)
          rw [← own'] at after'
          exact after'
    state := by
      show buffer.writerState.toNat = active (buffer.calls.set _ _) +
        if buffer.stopped.isSome = true then 2 ^ 63 else 0
      rw [ok.state]
      omega
    recorded := by
      apply ok.recorded.of_set found
      · intro entry member
        rcases FrameTraceRing.advance_reserved steps with ⟨same, _⟩ | ⟨_, same, _⟩
        · rw [same] at member
          exact Or.inl member
        · rw [same] at member
          rcases List.mem_append.mp member with old | new
          · exact Or.inl old
          · exact Or.inr ⟨List.mem_singleton.mp new, _, is⟩
      · exact fun _ _ => ⟨_, is⟩
    claimed := ok.claimed
    stop := by
      have stop := ok.stop
      have none : none ∉ buffer.ring.reserved.map Prod.fst →
          none ∉ ring.reserved.map Prod.fst := by
        intro none
        rcases FrameTraceRing.advance_reserved steps with ⟨same, _⟩ | ⟨_, same, _⟩
        · rwa [same]
        · rw [same, List.map_append, List.mem_append, not_or]
          exact ⟨none, by simp⟩
      cases at' : buffer.stop with
      | idle | stopping _ | waiting _ =>
          rw [at'] at stop
          exact ⟨stop.1, none stop.2⟩
      | writing _ _ =>
          rw [at'] at stop
          exact absurd stop.2.1 notAlone
      | counting =>
          rw [at'] at stop
          exact absurd stop.alone notAlone
      | copying _ _ _ | contending _ _ _ | returned _ =>
          rw [at'] at stop
          exact absurd stop.1.alone notAlone }

theorem BufferOk.advance {number : Nat} (ok : BufferOk buffer)
    (bound : buffer.calls.length + 1 < 2 ^ 63)
    (steps : buffer.advance number = some next) : BufferOk next := by
  rcases Option.bind_eq_some_iff.mp steps with ⟨call, found, step⟩
  cases at_ : call.pc with
  | rejected =>
      rw [at_] at step
      cases step
      apply ok.returns found
      · rw [RecordCall.isActive, at_]
      · rw [RecordCall.writer, at_]
  | leaving published =>
      rw [at_] at step
      cases step
      apply ok.returns found
      · rw [RecordCall.isActive, at_]
      · rw [RecordCall.writer, at_]
  | writing pc =>
      rw [at_] at step
      rcases Option.bind_eq_some_iff.mp step with ⟨⟨ring, result⟩, advances, same⟩
      cases same
      exact ok.writes bound found at_ advances
  | returned published =>
      rw [at_] at step
      cases step

/-! ## Stopping -/

/-- The call that stops the trace goes on without touching anything. -/
theorem BufferOk.goesOn {stop : StopStep E} (ok : BufferOk buffer) (claimed : stop ≠ .idle →
      buffer.snapshotClaimed = true)
    (idle : buffer.stop.writer = none) (idle' : stop.writer = none)
    (stopOk : StopOk buffer.ring buffer.calls buffer.stopped stop) :
    BufferOk { buffer with stop } where
  ring := by
    have same : writers { buffer with stop } = writers buffer := by
      rw [writers, writers, idle, idle']
    rw [same]
    exact ok.ring
  state := ok.state
  recorded := ok.recorded
  claimed unclaimed := by
    by_contra busy
    rw [show buffer.snapshotClaimed = false from unclaimed] at claimed
    exact Bool.false_ne_true (claimed busy)
  stop := stopOk

theorem BufferOk.claimed_of_ne (ok : BufferOk buffer) (busy : buffer.stop ≠ .idle) :
    buffer.snapshotClaimed = true := by
  by_contra unclaimed
  exact busy (ok.claimed (Bool.not_eq_true _ ▸ unclaimed))

theorem BufferOk.stopAndSnapshot {event : E} (ok : BufferOk buffer) :
    BufferOk (buffer.stopAndSnapshot event) := by
  unfold FrameTraceBuffer.stopAndSnapshot
  by_cases claimed : buffer.snapshotClaimed = true
  · rw [if_pos claimed]
    exact ok
  · rw [if_neg claimed]
    have idle := ok.claimed (Bool.not_eq_true _ ▸ claimed)
    have stop := ok.stop
    have ring := ok.ring
    rw [idle] at stop
    rw [writers, idle] at ring
    exact ⟨ring, ok.state, ok.recorded, (by cases ·), stop⟩

/-- The bit that turns calls away is set. -/
theorem BufferOk.stops {event : E} (ok : BufferOk buffer)
    (bound : buffer.calls.length + 1 < 2 ^ 63) (at_ : buffer.stop = .stopping event) :
    BufferOk { buffer with
      writerState := buffer.writerState ||| writerStopBit
      stop := .waiting event
      stopped := some (buffer.calls.length, event) } := by
  have stop := ok.stop
  have ring := ok.ring
  have state := ok.state
  have fewer := active_le buffer.calls
  rw [at_] at stop
  rw [writers, at_] at ring
  rw [stop.1] at state
  have low : buffer.writerState.toNat = active buffer.calls := state
  exact {
    ring := ring
    state := by
      show (buffer.writerState ||| topBit).toNat = active buffer.calls + 2 ^ 63
      rw [toNat_or_topBit (by omega), low, Nat.add_comm]
    recorded := by
      refine ⟨ok.recorded.event, ?_, ?_⟩
      · rintro number content limit event taken ⟨⟩
        rcases ok.recorded.event taken with ⟨call, found, _⟩
        exact (List.getElem?_eq_some_iff.mp found).1
      · rintro number call writer limit event found _ ⟨⟩
        exact (List.getElem?_eq_some_iff.mp found).1
    claimed := fun unclaimed => by
      have claimed := ok.claimed_of_ne (by rw [at_]; rintro ⟨⟩)
      rw [claimed] at unclaimed
      cases unclaimed
    stop := ⟨⟨_, rfl⟩, stop.2⟩ }

/-- Nobody is registered any more. -/
theorem BufferOk.begins {event : E} (ok : BufferOk buffer)
    (bound : buffer.calls.length + 1 < 2 ^ 63) (at_ : buffer.stop = .waiting event)
    (clear : ¬ buffer.writerState &&& writerActiveMask ≠ 0) :
    BufferOk { buffer with stop := .writing event .reserve } := by
  have stop := ok.stop
  have ring := ok.ring
  have state := ok.state
  have fewer := active_le buffer.calls
  rw [at_] at stop
  rcases stop with ⟨⟨limit, stopped⟩, fresh⟩
  rw [stopped] at state
  have high : buffer.writerState.toNat = active buffer.calls + 2 ^ 63 := state
  have none : active buffer.calls = 0 := by
    have mask : writerActiveMask = ~~~topBit := by decide
    have rest := toNat_and_not_topBit buffer.writerState
    rw [← mask, not_ne_iff.mp clear, high] at rest
    have zero : (0 : UInt64).toNat = 0 := rfl
    omega
  have alone := recording_eq_zero none
  rw [writers, at_, alone] at ring
  exact {
    ring := by
      rw [writers, alone]
      exact ring.begins (Multiset.notMem_zero _) fresh
    state := ok.state
    recorded := ok.recorded
    claimed := fun unclaimed => by
      have claimed := ok.claimed_of_ne (by rw [at_]; rintro ⟨⟩)
      rw [claimed] at unclaimed
      cases unclaimed
    stop := ⟨⟨limit, stopped⟩, alone, trivial⟩ }

theorem BufferOk.stopWrites {event : E} {pc : WriteStep} {ring : FrameTraceRing E}
    {result : WriteStep ⊕ Bool} (ok : BufferOk buffer)
    (bound : buffer.calls.length + 1 < 2 ^ 63) (at_ : buffer.stop = .writing event pc)
    (steps : buffer.ring.advance ⟨none, event, pc⟩ = some (ring, result)) :
    BufferOk { buffer with
      ring
      stop := result.elim (.writing event) fun _ => .counting } := by
  have stop := ok.stop
  have before := ok.ring
  rw [at_] at stop
  rcases stop with ⟨⟨limit, stopped⟩, alone, writing⟩
  rw [writers, at_, alone, add_zero] at before
  have single : buffer.ring.RingOk {⟨none, event, pc⟩} := before
  have room : pc = .reserve → buffer.ring.reserved.length + 1 < 2 ^ 63 := by
    intro reserves
    apply ok.reserved_lt bound
    · exact single.before _ (Multiset.mem_singleton_self _) reserves
    · intro other same
      cases same
  have after := single.advance room steps
  have goes := single.stop_advance writing steps
  have taken : ∀ {number content}, (some number, content) ∈ ring.reserved →
      (some number, content) ∈ buffer.ring.reserved := by
    intro number content member
    rcases FrameTraceRing.advance_reserved steps with ⟨same, _⟩ | ⟨_, same, _⟩
    · rwa [same] at member
    · rw [same] at member
      rcases List.mem_append.mp member with old | new
      · exact old
      · cases List.mem_singleton.mp new
  have recorded : Recorded ring buffer.calls buffer.stopped :=
    ⟨fun member => ok.recorded.event (taken member),
      fun member => ok.recorded.early (taken member), ok.recorded.writing⟩
  have claimed := ok.claimed_of_ne (by rw [at_]; rintro ⟨⟩)
  have unclaimed : ∀ {stop : StopStep E}, buffer.snapshotClaimed = false → stop = .idle := by
    intro stop unclaimed
    rw [claimed] at unclaimed
    cases unclaimed
  cases result with
  | inl pc' =>
      refine ⟨?_, ok.state, recorded, unclaimed, ⟨limit, stopped⟩, alone, goes⟩
      rw [writers, alone, add_zero]
      exact after
  | inr published =>
      refine ⟨?_, ok.state, recorded, unclaimed, alone, limit, event, stopped, goes.2⟩
      rw [writers, alone, add_zero]
      exact after

theorem copied_append (front back : List (FrameTraceSlot E)) :
    copied (front ++ back) = copied front ++ copied back :=
  List.filterMap_append

theorem BufferOk.advanceStop (ok : BufferOk buffer) (bound : buffer.calls.length + 1 < 2 ^ 63)
    (steps : buffer.advanceStop = some next) : BufferOk next := by
  have stop := ok.stop
  have claimed := ok.claimed_of_ne
  unfold FrameTraceBuffer.advanceStop at steps
  cases at_ : buffer.stop with
  | idle =>
      rw [at_] at steps
      cases steps
  | stopping event =>
      rw [at_] at steps
      cases steps
      exact ok.stops bound at_
  | waiting event =>
      rw [at_] at steps
      by_cases clear : buffer.writerState &&& writerActiveMask ≠ 0
      · simp only [if_pos clear] at steps
        cases steps
        exact ok
      · simp only [if_neg clear] at steps
        cases steps
        exact ok.begins bound at_ clear
  | writing event pc =>
      rw [at_] at steps
      rcases Option.bind_eq_some_iff.mp steps with ⟨⟨ring, result⟩, advances, same⟩
      cases same
      exact ok.stopWrites bound at_ advances
  | counting =>
      rw [at_] at steps stop claimed
      cases steps
      apply ok.goesOn (fun _ => claimed (by rintro ⟨⟩)) (by rw [at_]; rfl) rfl
      exact ⟨stop, rfl, rfl⟩
  | copying publishedEvents index events =>
      rw [at_] at steps stop claimed
      dsimp only at steps
      rcases stop with ⟨finished, published, rfl⟩
      cases held : buffer.ring.slots[index]? with
      | some slot =>
          rw [held] at steps
          cases steps
          apply ok.goesOn (fun _ => claimed (by rintro ⟨⟩)) (by rw [at_]; rfl) rfl
          refine ⟨finished, published, ?_⟩
          rw [List.take_add_one, held, copied_append]
          show (if slot.sequence &&& sequenceMask = 0 then _ else _) = _ ++ copied [slot]
          rw [copied, copied, List.filterMap_cons]
          split_ifs <;> simp
      | none =>
          rw [held] at steps
          cases steps
          apply ok.goesOn (fun _ => claimed (by rintro ⟨⟩)) (by rw [at_]; rfl) rfl
          refine ⟨finished, published, rfl, ?_⟩
          rw [List.take_of_length_le (List.getElem?_eq_none_iff.mp held)]
  | contending publishedEvents supersededWrites events =>
      rw [at_] at steps stop claimed
      rcases stop with ⟨finished, rfl, rfl, rfl⟩
      cases steps
      apply ok.goesOn (fun _ => claimed (by rintro ⟨⟩)) (by rw [at_]; rfl) rfl
      exact ⟨finished, rfl, rfl, rfl, rfl, rfl⟩
  | returned snapshot =>
      rw [at_] at steps
      cases steps

end FrameTraceBuffer

end Gpui
