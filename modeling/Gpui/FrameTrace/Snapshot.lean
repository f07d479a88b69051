import Gpui.FrameTrace.Registered

/-!
# Snapshots of the trace

When the call that stops the trace has returned, its own event is the last one, no slot is
claimed, and the slots hold what the counters say.
-/

namespace Gpui

open Library

variable {E : Type}

namespace FrameTraceBuffer

variable {buffer next : FrameTraceBuffer E}

/-! ## Runs -/

theorem calls_advance {number : Nat} (steps : buffer.advance number = some next) :
    next.calls.length = buffer.calls.length := by
  rcases Option.bind_eq_some_iff.mp steps with ⟨call, _, step⟩
  cases at_ : call.pc with
  | rejected | leaving _ =>
      rw [at_] at step
      cases step
      exact List.length_set
  | writing pc =>
      rw [at_] at step
      rcases Option.bind_eq_some_iff.mp step with ⟨⟨ring, result⟩, _, same⟩
      cases same
      exact List.length_set
  | returned _ =>
      rw [at_] at step
      cases step

theorem calls_advanceStop (steps : buffer.advanceStop = some next) :
    next.calls = buffer.calls := by
  unfold FrameTraceBuffer.advanceStop at steps
  cases at_ : buffer.stop with
  | idle | returned _ =>
      rw [at_] at steps
      cases steps
  | stopping _ | counting | contending _ _ _ =>
      rw [at_] at steps
      cases steps
      rfl
  | waiting event =>
      rw [at_] at steps
      dsimp only at steps
      split_ifs at steps <;> cases steps <;> rfl
  | writing event pc =>
      rw [at_] at steps
      rcases Option.bind_eq_some_iff.mp steps with ⟨⟨ring, result⟩, _, same⟩
      cases same
      rfl
  | copying publishedEvents index events =>
      rw [at_] at steps
      dsimp only at steps
      cases held : buffer.ring.slots[index]? with
      | some slot | none =>
          rw [held] at steps
          cases steps
          rfl

/-- Calls of `record` only become more. -/
theorem calls_step {call : FrameTraceCall E} (steps : buffer.step call = some next) :
    buffer.calls.length ≤ next.calls.length := by
  cases call with
  | record event =>
      cases steps
      show buffer.calls.length ≤ (buffer.calls ++ [_]).length
      rw [List.length_append]
      exact Nat.le_add_right _ _
  | advance number => exact (calls_advance steps).ge
  | stop event =>
      cases steps
      unfold FrameTraceBuffer.stopAndSnapshot
      split_ifs <;> exact le_rfl
  | advanceStop => rw [calls_advanceStop steps]

theorem BufferOk.step {call : FrameTraceCall E} (ok : BufferOk buffer)
    (bound : next.calls.length + 1 < 2 ^ 63) (steps : buffer.step call = some next) :
    BufferOk next := by
  have fewer := calls_step steps
  have bound' : buffer.calls.length + 1 < 2 ^ 63 := by omega
  cases call with
  | record event =>
      cases steps
      exact ok.record bound'
  | advance number => exact ok.advance bound' steps
  | stop event =>
      cases steps
      exact ok.stopAndSnapshot
  | advanceStop => exact ok.advanceStop bound' steps

theorem bufferOk_of_run {capacity : Nat} {uninit : FrameTraceEvent E} {runIdHash : UInt64}
    {calls : List (FrameTraceCall E)}
    (run : Run FrameTraceBuffer.step (fun _ _ => True) (new capacity uninit runIdHash) calls buffer)
    (bound : buffer.calls.length + 1 < 2 ^ 63) : BufferOk buffer := by
  apply run.invariant (fun _ buffer => buffer.calls.length + 1 < 2 ^ 63 → BufferOk buffer)
    (fun _ => bufferOk_new capacity uninit runIdHash) _ bound
  intro _ _ _ _ ok _ steps bound
  have fewer := calls_step steps
  exact (ok (by omega)).step bound steps

/-! ## The snapshot -/

/-- Nobody writes any more: a slot that has an event has the one of its sequence. -/
theorem stored_of_alone {ring : FrameTraceRing E} (ok : ring.RingOk 0) {index : Nat}
    {slot : FrameTraceSlot E} (found : ring.slots[index]? = some slot) :
    slot.sequence &&& sequenceMask = slot.sequence ∧ (slot.sequence ≠ 0 →
      slot.event.eventSequenceId = slot.sequence ∧ ring.slotIndex slot.sequence = index ∧
        ∃ caller, ring.Reserved caller slot.event.content slot.sequence) := by
  have unowned : ∀ writer ∈ (0 : Multiset (TraceWriter E)), writer.pc.owned = none :=
    fun _ member => absurd member (Multiset.notMem_zero _)
  have low := (ok.unclaimed unowned (List.mem_of_getElem? found)).1
  constructor
  · have masked : (slot.sequence &&& sequenceMask).toNat = slot.sequence.toNat % 2 ^ 63 :=
      toNat_and_not_topBit _
    rw [Nat.mod_eq_of_lt low] at masked
    exact UInt64.toNat_inj.mp masked
  · exact (ok.slot index slot found).stored low

theorem mem_copied {ring : FrameTraceRing E} (ok : ring.RingOk 0) {event : FrameTraceEvent E}
    (member : event ∈ copied ring.slots) :
    ∃ index : Nat, ring.slots[index]? = some ⟨event.eventSequenceId, event⟩ ∧
      event.eventSequenceId ≠ 0 ∧
      ∃ caller, ring.Reserved caller event.content event.eventSequenceId := by
  rcases List.mem_filterMap.mp member with ⟨slot, listed, copies⟩
  rcases List.mem_iff_getElem?.mp listed with ⟨index, found⟩
  rcases stored_of_alone ok found with ⟨masked, stored⟩
  rw [masked] at copies
  rcases Option.ite_none_left_eq_some.mp copies with ⟨nonzero, same⟩
  rcases Option.some.inj same with rfl
  rcases stored nonzero with ⟨id, _, reserved⟩
  rw [← id] at nonzero reserved
  exact ⟨index, by rw [id]; exact found, nonzero, reserved⟩

/-- No two slots have the event of one id. -/
theorem pairwise_copied {ring : FrameTraceRing E} (ok : ring.RingOk 0) :
    (copied ring.slots).Pairwise fun first second =>
      first.eventSequenceId ≠ second.eventSequenceId := by
  rw [copied, List.pairwise_filterMap, List.pairwise_iff_getElem]
  intro first second bound bound' before event copies event' copies' same
  have found := List.getElem?_eq_getElem bound
  have found' := List.getElem?_eq_getElem bound'
  rcases stored_of_alone ok found with ⟨masked, stored⟩
  rcases stored_of_alone ok found' with ⟨masked', stored'⟩
  rw [masked] at copies
  rw [masked'] at copies'
  rcases Option.ite_none_left_eq_some.mp copies with ⟨nonzero, is⟩
  rcases Option.ite_none_left_eq_some.mp copies' with ⟨nonzero', is'⟩
  rcases Option.some.inj is with rfl
  rcases Option.some.inj is' with rfl
  rcases stored nonzero with ⟨id, place, _⟩
  rcases stored' nonzero' with ⟨id', place', _⟩
  rw [id, id'] at same
  rw [same, place'] at place
  exact absurd before (by omega)

theorem pairwise_sortedEvents {events : List (FrameTraceEvent E)}
    (distinct : events.Pairwise fun first second =>
      first.eventSequenceId ≠ second.eventSequenceId) :
    (sortedEvents events).Pairwise fun first second =>
      first.eventSequenceId < second.eventSequenceId := by
  have sorted : (sortedEvents events).Pairwise fun first second =>
      decide (first.eventSequenceId ≤ second.eventSequenceId) = true := by
    apply List.pairwise_mergeSort
    · intro first second third le le'
      exact decide_eq_true (UInt64.le_trans (of_decide_eq_true le) (of_decide_eq_true le'))
    · intro first second
      rcases UInt64.le_total first.eventSequenceId second.eventSequenceId with le | le
      · rw [decide_eq_true le, Bool.true_or]
      · rw [decide_eq_true le, Bool.or_true]
  have apart : (sortedEvents events).Pairwise fun first second =>
      first.eventSequenceId ≠ second.eventSequenceId :=
    distinct.perm (List.mergeSort_perm ..).symm fun ne => ne.symm
  exact (sorted.and apart).imp fun ⟨le, ne⟩ =>
    UInt64.lt_of_le_of_ne (of_decide_eq_true le) ne

theorem mem_sortedEvents {events : List (FrameTraceEvent E)} {event : FrameTraceEvent E} :
    event ∈ sortedEvents events ↔ event ∈ events :=
  (List.mergeSort_perm ..).mem_iff

/-- A call of `record` that began before the trace was stopped took the event's id for it. -/
def RecordedBy (buffer : FrameTraceBuffer E) (limit : Nat) (event : FrameTraceEvent E)
    (number : Nat) : Prop :=
  number < limit ∧ (∃ call, buffer.calls[number]? = some call ∧ call.event = event.content) ∧
    buffer.ring.reserved[event.eventSequenceId.toNat - 1]? = some (some number, event.content)

/-- The event of the call that stops the trace comes last. -/
theorem TakenFrom.ends {ring : FrameTraceRing E} {snapshot : FrameTraceSnapshot E}
    (ok : ring.RingOk 0) (taken : TakenFrom ring snapshot) {event : E}
    (settled : ring.Settled event) :
    ∃ front sequence, snapshot.events = front ++ [⟨sequence, event⟩] ∧
      sequence.toNat = ring.reserved.length ∧ ring.reserved.getLast? = some (none, event) := by
  rcases settled with ⟨sequence, ⟨last, length⟩, found⟩
  have nonzero : sequence ≠ 0 := by
    intro zero
    rw [zero] at length
    rw [List.length_eq_zero_iff.mp length.symm] at last
    cases last
  have member : ⟨sequence, event⟩ ∈ snapshot.events := by
    rw [taken.events, mem_sortedEvents, copied, List.mem_filterMap]
    refine ⟨_, List.mem_of_getElem? found, ?_⟩
    rw [(stored_of_alone ok found).1, if_neg nonzero]
  have ascending := pairwise_sortedEvents (pairwise_copied ok)
  rw [← taken.events] at ascending
  rcases List.eq_nil_or_concat snapshot.events with none | ⟨front, final, split⟩
  · rw [none] at member
    cases member
  · rw [List.concat_eq_append] at split
    refine ⟨front, sequence, ?_, length, last⟩
    rw [split] at member ascending ⊢
    rcases List.mem_append.mp member with early | only
    · have before := (List.pairwise_append.mp ascending).2.2 _ early final
        (List.mem_singleton_self _)
      have among : final ∈ copied ring.slots := by
        rw [← mem_sortedEvents, ← taken.events, split]
        exact List.mem_append_right _ (List.mem_singleton_self _)
      rcases mem_copied ok among with ⟨_, _, _, caller, reserved⟩
      have le := reserved.le
      rw [UInt64.lt_iff_toNat_lt] at before
      dsimp only at before
      omega
    · rw [List.mem_singleton.mp only]

/-- The events before it were recorded by calls that began before the trace was stopped. -/
theorem BufferOk.recordedBy (ok : BufferOk buffer) (alone : buffer.ring.RingOk 0) {limit : Nat}
    {stopEvent : E} (stopped : buffer.stopped = some (limit, stopEvent))
    (last : buffer.ring.reserved.getLast? = some (none, stopEvent)) {event : FrameTraceEvent E}
    (member : event ∈ copied buffer.ring.slots)
    (earlier : event.eventSequenceId.toNat < buffer.ring.reserved.length) :
    ∃! number, RecordedBy buffer limit event number := by
  rcases mem_copied alone member with ⟨_, _, _, caller, reserved⟩
  have taken := List.mem_of_getElem? reserved.2
  cases caller with
  | none =>
      -- Then the call that stops the trace took two ids.
      have positive := reserved.1
      have apart := List.nodup_iff_getElem?_ne_getElem?.mp ok.ring.once
        (event.eventSequenceId.toNat - 1) (buffer.ring.reserved.length - 1) (by omega)
        (by rw [List.length_map]; omega)
      rw [List.getElem?_map, List.getElem?_map, reserved.2, ← List.getLast?_eq_getElem?,
        last] at apart
      exact absurd rfl apart
  | some number =>
      refine ⟨number, ⟨ok.recorded.early taken stopped, ok.recorded.event taken, reserved.2⟩, ?_⟩
      rintro other ⟨_, _, took⟩
      rw [reserved.2] at took
      cases took
      rfl

theorem length_sortedEvents (events : List (FrameTraceEvent E)) :
    (sortedEvents events).length = events.length :=
  List.length_mergeSort ..

theorem length_copied {ring : FrameTraceRing E} (ok : ring.RingOk 0) :
    (copied ring.slots).length = ring.slots.countP fun slot => slot.sequence ≠ 0 := by
  rw [copied, List.length_filterMap_eq_countP]
  apply List.countP_congr
  intro slot member
  rcases List.mem_iff_getElem?.mp member with ⟨index, found⟩
  rw [(stored_of_alone ok found).1]
  by_cases zero : slot.sequence = 0
  · simp [zero]
  · simp [zero]

/-- The counters of a ring that nobody writes to account for every id. -/
theorem TakenFrom.counts {ring : FrameTraceRing E} {snapshot : FrameTraceSnapshot E}
    (ok : ring.RingOk 0) (taken : TakenFrom ring snapshot) :
    ring.publishedEvents.toNat = snapshot.events.length + snapshot.overwrittenEvents.toNat ∧
      ring.nextEventSequenceId.toNat - 1 = ring.publishedEvents.toNat +
        snapshot.supersededWrites.toNat + snapshot.contendedWrites.toNat := by
  constructor
  · have fewer : snapshot.events.length ≤ ring.publishedEvents.toNat := by
      rw [taken.events, length_sortedEvents, length_copied ok]
      exact ok.occupied
    have bound := ring.publishedEvents.toNat_lt
    have length : (UInt64.ofNat snapshot.events.length).toNat = snapshot.events.length :=
      UInt64.toNat_ofNat_of_lt' (fewer.trans_lt bound)
    rw [taken.overwritten, toNat_saturatingSub (length.trans_le fewer), length]
    omega
  · rw [ok.next, Nat.add_sub_cancel, taken.superseded, taken.contended]
    exact ok.accounted

/-- What a snapshot tells of the trace: events with ascending ids, the one of the call that
stopped it as the last, each of the others recorded by one call that began before; and counters
that account for every event and every id. -/
structure Intact (buffer : FrameTraceBuffer E) (snapshot : FrameTraceSnapshot E) : Prop where
  ascending : snapshot.events.Pairwise fun first second =>
    first.eventSequenceId < second.eventSequenceId
  events : ∃ limit stopEvent recorded sequence, buffer.stopped = some (limit, stopEvent) ∧
    snapshot.events = recorded ++ [⟨sequence, stopEvent⟩] ∧
      ∀ event ∈ recorded, ∃! number, RecordedBy buffer limit event number
  once : (buffer.ring.reserved.map Prod.fst).Nodup
  published : buffer.ring.publishedEvents.toNat =
    snapshot.events.length + snapshot.overwrittenEvents.toNat
  reserved : buffer.ring.nextEventSequenceId.toNat - 1 = buffer.ring.publishedEvents.toNat +
    snapshot.supersededWrites.toNat + snapshot.contendedWrites.toNat

/-- In any order of the operations of calls that record fewer than 2 ^ 63 events in all. -/
theorem run_intact {capacity : Nat} {uninit : FrameTraceEvent E} {runIdHash : UInt64}
    {calls : List (FrameTraceCall E)} {snapshot : FrameTraceSnapshot E}
    (run : Run FrameTraceBuffer.step (fun _ _ => True) (new capacity uninit runIdHash) calls buffer)
    (bound : buffer.calls.length + 1 < 2 ^ 63) (returned : buffer.stop = .returned snapshot) :
    Intact buffer snapshot := by
  have ok := bufferOk_of_run run bound
  have stop := ok.stop
  have alone := ok.ring
  rw [returned] at stop
  rcases stop with ⟨⟨none, limit, stopEvent, stopped, settled⟩, taken⟩
  rw [writers, returned, none] at alone
  have ascending := pairwise_sortedEvents (pairwise_copied alone)
  rw [← taken.events] at ascending
  rcases taken.counts alone with ⟨published, reserved⟩
  rcases taken.ends alone settled with ⟨recorded, sequence, split, length, last⟩
  refine ⟨ascending, ⟨limit, stopEvent, recorded, sequence, stopped, split, ?_⟩, ok.ring.once,
    published, reserved⟩
  intro event member
  apply ok.recordedBy alone stopped last
  · rw [← mem_sortedEvents, ← taken.events, split]
    exact List.mem_append_left _ member
  · rw [split, List.pairwise_append] at ascending
    have before := ascending.2.2 event member _ (List.mem_singleton_self _)
    rw [UInt64.lt_iff_toNat_lt] at before
    exact before.trans_eq length

/-- In a ring of one slot a writer is overtaken, and what overtook it is overwritten. -/
def overtaking : List (FrameTraceCall Nat) :=
  [.record 10, .record 20, .advance 0, .advance 1] ++ List.replicate 5 (.advance 1) ++
    List.replicate 3 (.advance 0) ++ [.advance 1, .stop 99] ++ List.replicate 12 .advanceStop

theorem run_intact_superseded :
    ∃ buffer : FrameTraceBuffer Nat, ∃ snapshot, Intact buffer snapshot ∧
      snapshot.supersededWrites = 1 ∧ buffer.ring.publishedEvents = 2 ∧
        buffer.stopped = some (2, 99) := by
  have runs : ∃ buffer : FrameTraceBuffer Nat, ∃ snapshot,
      overtaking.foldlM FrameTraceBuffer.step (new 1 ⟨0, 0⟩ 7) = some buffer ∧
      buffer.stop = .returned snapshot ∧ snapshot.supersededWrites = 1 ∧
      buffer.ring.publishedEvents = 2 ∧ buffer.stopped = some (2, 99) ∧
      buffer.calls.length = 2 :=
    ⟨_, _, rfl, rfl, rfl, rfl, rfl, rfl⟩
  rcases runs with ⟨buffer, snapshot, run, returned, superseded, published, stopped, length⟩
  have bound : buffer.calls.length + 1 < 2 ^ 63 := by
    rw [length]
    decide
  exact ⟨buffer, snapshot, run_intact (.of_foldlM run) bound returned, superseded, published,
    stopped⟩

end FrameTraceBuffer

end Gpui
