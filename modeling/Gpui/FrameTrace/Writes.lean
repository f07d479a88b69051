import Gpui.FrameTrace.Buffer

/-!
# Writers of the ring

What holds of the ring and the writers that are at work, in any order of their steps: each
has its own id, at most one owns a slot, a slot that nobody owns holds the event of the id
in its sequence, and every id that was taken is counted once or still with its writer.
-/

namespace Gpui

open Library

namespace WriteStep

/-- The writer has taken an id and has not been counted. -/
def hasReserved : WriteStep → Bool
  | reserve => false
  | _ => true

/-- The slot of this id is the writer's. -/
def owned : WriteStep → Option UInt64
  | write sequence | publish sequence => some sequence
  | _ => none

/-- The writer has its event in a slot, or will have, and has not been counted. -/
def fills : WriteStep → Bool
  | write _ | publish _ | count => true
  | _ => false

end WriteStep

namespace FrameTraceRing

variable {E : Type}

/-- The id was taken for this content. -/
def Reserved (ring : FrameTraceRing E) (caller : Option Nat) (content : E) (sequence : UInt64) :
    Prop :=
  0 < sequence.toNat ∧ ring.reserved[sequence.toNat - 1]? = some (caller, content)

/-- What a writer relies on. -/
def WriterOk (ring : FrameTraceRing E) (writer : TraceWriter E) : Prop :=
  match writer.pc with
  | .load sequence => ring.Reserved writer.caller writer.content sequence
  | .claim sequence previous =>
      ring.Reserved writer.caller writer.content sequence ∧ previous.toNat < 2 ^ 63 ∧
        previous < sequence
  | .write sequence =>
      ring.Reserved writer.caller writer.content sequence ∧
        ∃ slot, ring.slots[ring.slotIndex sequence]? = some slot ∧
          slot.sequence = sequence ||| topBit
  | .publish sequence =>
      ring.Reserved writer.caller writer.content sequence ∧
        ∃ slot, ring.slots[ring.slotIndex sequence]? = some slot ∧
          slot.sequence = sequence ||| topBit ∧ slot.event = ⟨sequence, writer.content⟩
  | .reserve | .count | .contend | .supersede => True

/-- A slot that nobody owns holds the event of its sequence, if it has one. -/
structure SlotOk (ring : FrameTraceRing E) (writers : Multiset (TraceWriter E)) (index : Nat)
    (slot : FrameTraceSlot E) : Prop where
  stored : slot.sequence.toNat < 2 ^ 63 → slot.sequence ≠ 0 →
    slot.event.eventSequenceId = slot.sequence ∧ ring.slotIndex slot.sequence = index ∧
      ∃ caller, ring.Reserved caller slot.event.content slot.sequence
  claimed : 2 ^ 63 ≤ slot.sequence.toNat → ∃ writer ∈ writers, ∃ sequence,
    writer.pc.owned = some sequence ∧ ring.slotIndex sequence = index

def uncounted (writers : Multiset (TraceWriter E)) : Nat :=
  writers.countP fun writer => writer.pc.hasReserved = true

def filling (writers : Multiset (TraceWriter E)) : Nat :=
  writers.countP fun writer => writer.pc.fills = true

theorem uncounted_cons (writer : TraceWriter E) (writers : Multiset (TraceWriter E)) :
    uncounted (writer ::ₘ writers) =
      uncounted writers + if writer.pc.hasReserved = true then 1 else 0 :=
  Multiset.countP_cons ..

theorem filling_cons (writer : TraceWriter E) (writers : Multiset (TraceWriter E)) :
    filling (writer ::ₘ writers) =
      filling writers + if writer.pc.fills = true then 1 else 0 :=
  Multiset.countP_cons ..

structure RingOk (ring : FrameTraceRing E) (writers : Multiset (TraceWriter E)) : Prop where
  few : ring.reserved.length < 2 ^ 63
  next : ring.nextEventSequenceId.toNat = ring.reserved.length + 1
  accounted : ring.reserved.length = ring.publishedEvents.toNat + ring.supersededWrites.toNat +
    ring.contendedWrites.toNat + uncounted writers
  occupied : ring.slots.countP (fun slot => slot.sequence ≠ 0) ≤
    ring.publishedEvents.toNat + filling writers
  callers : (writers.map TraceWriter.caller).Nodup
  once : (ring.reserved.map Prod.fst).Nodup
  before : ∀ writer ∈ writers, writer.pc = .reserve →
    writer.caller ∉ ring.reserved.map Prod.fst
  writer : ∀ writer ∈ writers, ring.WriterOk writer
  slot : ∀ index slot, ring.slots[index]? = some slot → ring.SlotOk writers index slot

variable {ring after : FrameTraceRing E} {writers : Multiset (TraceWriter E)}
  {writer : TraceWriter E}

theorem ringOk_new (capacity : Nat) (uninit : FrameTraceEvent E) :
    RingOk (new capacity uninit) 0 where
  few := show 0 < 2 ^ 63 by decide
  next := rfl
  accounted := rfl
  occupied := by
    have empty : (List.replicate capacity (⟨0, uninit⟩ : FrameTraceSlot E)).countP
        (fun slot => slot.sequence ≠ 0) = 0 := by
      rw [List.countP_eq_zero]
      intro slot member
      rw [(List.mem_replicate.mp member).2]
      exact Bool.false_ne_true
    exact empty.le.trans (Nat.zero_le _)
  callers := Multiset.nodup_zero
  once := List.nodup_nil
  before _ member := by cases member
  writer _ member := by cases member
  slot index slot found := by
    have member : slot ∈ List.replicate capacity (⟨0, uninit⟩ : FrameTraceSlot E) :=
      List.mem_of_getElem? found
    rw [(List.mem_replicate.mp member).2]
    constructor
    · exact fun _ nonzero => absurd rfl nonzero
    · exact fun large => absurd large (show ¬ 2 ^ 63 ≤ 0 by decide)

/-! ## Ids -/

theorem Reserved.le {caller : Option Nat} {content : E} {sequence : UInt64}
    (reserved : ring.Reserved caller content sequence) :
    sequence.toNat ≤ ring.reserved.length := by
  have below := (List.getElem?_eq_some_iff.mp reserved.2).1
  have positive := reserved.1
  omega

theorem Reserved.low {caller : Option Nat} {content : E} {sequence : UInt64}
    (reserved : ring.Reserved caller content sequence) (few : ring.reserved.length < 2 ^ 63) :
    sequence.toNat < 2 ^ 63 :=
  reserved.le.trans_lt few

theorem Reserved.append {caller : Option Nat} {content : E} {sequence : UInt64}
    (reserved : ring.Reserved caller content sequence) {entry : Option Nat × E}
    (appended : after.reserved = ring.reserved ++ [entry]) :
    after.Reserved caller content sequence := by
  refine ⟨reserved.1, ?_⟩
  rw [appended, List.getElem?_append_left (List.getElem?_eq_some_iff.mp reserved.2).1]
  exact reserved.2

theorem Reserved.congr {caller : Option Nat} {content : E} {sequence : UInt64}
    (reserved : ring.Reserved caller content sequence) (same : after.reserved = ring.reserved) :
    after.Reserved caller content sequence := by
  rw [Reserved, same]
  exact reserved

/-- A claimed sequence tells the id. -/
theorem or_topBit_inj {first second : UInt64} (low : first.toNat < 2 ^ 63)
    (low' : second.toNat < 2 ^ 63) (same : first ||| topBit = second ||| topBit) :
    first = second := by
  have equal := congrArg UInt64.toNat same
  rw [toNat_or_topBit low, toNat_or_topBit low'] at equal
  exact UInt64.toNat_inj.mp (Nat.add_left_cancel equal)

/-- What a writer owns, and that it has claimed it. -/
theorem WriterOk.owns (ok : ring.WriterOk writer) {sequence : UInt64}
    (owned : writer.pc.owned = some sequence) :
    ring.Reserved writer.caller writer.content sequence ∧
      ∃ slot, ring.slots[ring.slotIndex sequence]? = some slot ∧
        slot.sequence = sequence ||| topBit := by
  unfold WriterOk at ok
  cases at_ : writer.pc with
  | write _ =>
      rw [at_] at ok owned
      cases owned
      exact ok
  | publish _ =>
      rw [at_] at ok owned
      cases owned
      rcases ok with ⟨reserved, slot, found, claimed, _⟩
      exact ⟨reserved, slot, found, claimed⟩
  | _ =>
      rw [at_] at owned
      cases owned

theorem slotIndex_setSlot (index : Nat) (slot : FrameTraceSlot E) (sequence : UInt64) :
    (ring.setSlot index slot).slotIndex sequence = ring.slotIndex sequence := by
  rw [slotIndex, slotIndex, setSlot, List.length_set]

/-! ## Steps -/

/-- A writer keeps what it relies on if its slot stays and ids are only added. -/
theorem WriterOk.of_kept (ok : ring.WriterOk writer)
    (reserved : ∀ {caller content sequence}, ring.Reserved caller content sequence →
      after.Reserved caller content sequence)
    (kept : ∀ sequence, writer.pc.owned = some sequence →
      after.slots[after.slotIndex sequence]? = ring.slots[ring.slotIndex sequence]?) :
    after.WriterOk writer := by
  unfold WriterOk at ok ⊢
  cases at_ : writer.pc with
  | reserve | count | contend | supersede => trivial
  | load sequence =>
      rw [at_] at ok
      exact reserved ok
  | claim sequence previous =>
      rw [at_] at ok
      exact ⟨reserved ok.1, ok.2⟩
  | write sequence =>
      rw [at_] at ok
      refine ⟨reserved ok.1, ?_⟩
      rw [kept sequence (by rw [at_]; rfl)]
      exact ok.2
  | publish sequence =>
      rw [at_] at ok
      refine ⟨reserved ok.1, ?_⟩
      rw [kept sequence (by rw [at_]; rfl)]
      exact ok.2

/-- A slot keeps what it holds, and its owner if that one still works. -/
theorem SlotOk.of_kept {after : FrameTraceRing E} {writers' : Multiset (TraceWriter E)}
    {index : Nat} {slot : FrameTraceSlot E} (ok : ring.SlotOk writers index slot)
    (length : after.slots.length = ring.slots.length)
    (reserved : ∀ {caller content sequence}, ring.Reserved caller content sequence →
      after.Reserved caller content sequence)
    (works : ∀ writer ∈ writers, ∀ sequence, writer.pc.owned = some sequence →
      ring.slotIndex sequence = index →
        ∃ writer' ∈ writers', writer'.pc.owned = some sequence) :
    after.SlotOk writers' index slot := by
  have sameIndex : ∀ sequence, after.slotIndex sequence = ring.slotIndex sequence := by
    intro sequence
    rw [slotIndex, slotIndex, length]
  constructor
  · intro low nonzero
    rcases ok.stored low nonzero with ⟨id, place, caller, taken⟩
    exact ⟨id, (sameIndex _).trans place, caller, reserved taken⟩
  · intro high
    rcases ok.claimed high with ⟨writer, member, sequence, owned, place⟩
    rcases works writer member sequence owned place with ⟨writer', member', owned'⟩
    exact ⟨writer', member', sequence, owned', (sameIndex _).trans place⟩

/-- The writer takes an id. -/
theorem RingOk.reserves (ok : RingOk ring (writer ::ₘ writers)) (at_ : writer.pc = .reserve)
    (room : ring.reserved.length + 1 < 2 ^ 63) :
    RingOk (ring.reserve writer.caller writer.content)
      ({ writer with pc := .load ring.nextEventSequenceId } ::ₘ writers) := by
  have next := ok.next
  have grown : ∀ {caller content sequence}, ring.Reserved caller content sequence →
      (ring.reserve writer.caller writer.content).Reserved caller content sequence :=
    fun reserved => reserved.append rfl
  have length : (ring.reserve writer.caller writer.content).reserved.length =
      ring.reserved.length + 1 :=
    List.length_append
  exact {
    few := by
      rw [length]
      exact room
    next := by
      rw [length]
      show (ring.nextEventSequenceId + 1).toNat = _
      rw [toNat_add_one (by omega), next]
    accounted := by
      have accounted := ok.accounted
      rw [uncounted_cons, at_] at accounted
      rw [length, uncounted_cons, accounted]
      rfl
    occupied := by
      have occupied := ok.occupied
      rw [filling_cons, at_] at occupied
      rw [filling_cons]
      exact occupied
    callers := by
      have callers := ok.callers
      rw [Multiset.map_cons] at callers ⊢
      exact callers
    once := by
      rw [reserve, List.map_append, List.nodup_append]
      refine ⟨ok.once, List.nodup_singleton _, ?_⟩
      intro caller member other new same
      rw [List.map_singleton, List.mem_singleton] at new
      subst new same
      exact ok.before writer (Multiset.mem_cons_self _ _) at_ member
    before := by
      intro other member reserves
      rcases Multiset.mem_cons.mp member with rfl | member
      · cases reserves
      · rw [reserve, List.map_append, List.mem_append, not_or]
        refine ⟨ok.before other (Multiset.mem_cons_of_mem member) reserves, ?_⟩
        rw [List.map_singleton, List.mem_singleton]
        intro same
        have callers := ok.callers
        rw [Multiset.map_cons, Multiset.nodup_cons] at callers
        apply callers.1
        rw [← show other.caller = writer.caller from same]
        exact Multiset.mem_map_of_mem _ member
    writer := by
      intro other member
      rcases Multiset.mem_cons.mp member with rfl | member
      · refine ⟨?_, ?_⟩
        · rw [next]
          exact Nat.succ_pos _
        · rw [next, Nat.add_sub_cancel, reserve, List.getElem?_concat_length]
      · exact (ok.writer other (Multiset.mem_cons_of_mem member)).of_kept grown fun _ _ => rfl
    slot := by
      intro index slot found
      apply (ok.slot index slot found).of_kept
      · rfl
      · exact grown
      · intro other member sequence owned _
        rcases Multiset.mem_cons.mp member with rfl | member
        · rw [at_] at owned
          cases owned
        · exact ⟨other, Multiset.mem_cons_of_mem member, owned⟩ }

/-- The writer goes on without touching the ring. -/
theorem RingOk.moves {pc : WriteStep} (ok : RingOk ring (writer ::ₘ writers))
    (reserved : writer.pc.hasReserved = true) (reserved' : pc.hasReserved = true)
    (fills : writer.pc.fills = false) (owned : writer.pc.owned = none)
    (writerOk : ring.WriterOk { writer with pc }) :
    RingOk ring ({ writer with pc } ::ₘ writers) where
  few := ok.few
  next := ok.next
  accounted := by
    have accounted := ok.accounted
    rw [uncounted_cons, if_pos reserved] at accounted
    rw [uncounted_cons, if_pos reserved']
    exact accounted
  occupied := by
    have occupied := ok.occupied
    rw [filling_cons, fills, if_neg Bool.false_ne_true] at occupied
    rw [filling_cons]
    omega
  callers := by
    have callers := ok.callers
    rw [Multiset.map_cons] at callers ⊢
    exact callers
  once := ok.once
  before other member at_ := by
    rcases Multiset.mem_cons.mp member with rfl | member
    · rw [show pc = .reserve from at_] at reserved'
      cases reserved'
    · exact ok.before other (Multiset.mem_cons_of_mem member) at_
  writer other member := by
    rcases Multiset.mem_cons.mp member with rfl | member
    · exact writerOk
    · exact ok.writer other (Multiset.mem_cons_of_mem member)
  slot index slot found := by
    apply (ok.slot index slot found).of_kept rfl id
    intro other member sequence owns _
    rcases Multiset.mem_cons.mp member with rfl | member
    · rw [owned] at owns
      cases owns
    · exact ⟨other, Multiset.mem_cons_of_mem member, owns⟩

/-- The writer is counted, and returns. -/
theorem RingOk.leaves (ok : RingOk ring (writer ::ₘ writers))
    (slots : after.slots = ring.slots)
    (next : after.nextEventSequenceId = ring.nextEventSequenceId)
    (same : after.reserved = ring.reserved)
    (total : after.publishedEvents.toNat + after.supersededWrites.toNat +
      after.contendedWrites.toNat = ring.publishedEvents.toNat + ring.supersededWrites.toNat +
        ring.contendedWrites.toNat + 1)
    (published : (ring.publishedEvents.toNat + if writer.pc.fills = true then 1 else 0) ≤
      after.publishedEvents.toNat)
    (reserved : writer.pc.hasReserved = true) (owned : writer.pc.owned = none) :
    RingOk after writers where
  few := same ▸ ok.few
  next := by
    rw [next, same]
    exact ok.next
  accounted := by
    have accounted := ok.accounted
    rw [uncounted_cons, if_pos reserved] at accounted
    rw [same]
    omega
  occupied := by
    have occupied := ok.occupied
    rw [filling_cons] at occupied
    rw [slots]
    omega
  callers := by
    have callers := ok.callers
    rw [Multiset.map_cons, Multiset.nodup_cons] at callers
    exact callers.2
  once := same ▸ ok.once
  before other member at_ := by
    rw [same]
    exact ok.before other (Multiset.mem_cons_of_mem member) at_
  writer other member := by
    apply (ok.writer other (Multiset.mem_cons_of_mem member)).of_kept
    · exact fun reserved => reserved.congr same
    · intro sequence _
      rw [slotIndex, slotIndex, slots]
  slot index slot found := by
    rw [slots] at found
    apply (ok.slot index slot found).of_kept
    · rw [slots]
    · exact fun reserved => reserved.congr same
    · intro other member sequence owns _
      rcases Multiset.mem_cons.mp member with rfl | member
      · rw [owned] at owns
        cases owns
      · exact ⟨other, member, owns⟩

/-- The writer changes its slot, which no other writer owns. -/
theorem RingOk.sets {pc : WriteStep} {sequence : UInt64} {slot slot' : FrameTraceSlot E}
    (ok : RingOk ring (writer ::ₘ writers))
    (found : ring.slots[ring.slotIndex sequence]? = some slot)
    (unowned : ∀ other ∈ writers, ∀ owned, other.pc.owned = some owned →
      ring.slotIndex owned ≠ ring.slotIndex sequence)
    (reserved : writer.pc.hasReserved = true) (reserved' : pc.hasReserved = true)
    (own : ∀ owned, writer.pc.owned = some owned → owned = sequence)
    (fills : pc.fills = true) (filled : writer.pc.fills = true → slot.sequence ≠ 0)
    (writerOk : (ring.setSlot (ring.slotIndex sequence) slot').WriterOk { writer with pc })
    (slotOk : (ring.setSlot (ring.slotIndex sequence) slot').SlotOk
      ({ writer with pc } ::ₘ writers) (ring.slotIndex sequence) slot') :
    RingOk (ring.setSlot (ring.slotIndex sequence) slot') ({ writer with pc } ::ₘ writers) where
  few := ok.few
  next := ok.next
  accounted := by
    have accounted := ok.accounted
    rw [uncounted_cons, if_pos reserved] at accounted
    rw [uncounted_cons, if_pos reserved']
    exact accounted
  occupied := by
    have occupied := ok.occupied
    rcases List.getElem?_eq_some_iff.mp found with ⟨bound, here⟩
    have positive : (if slot.sequence ≠ 0 then 1 else 0) ≤
        ring.slots.countP fun slot => slot.sequence ≠ 0 := by
      by_cases nonzero : slot.sequence ≠ 0
      · rw [if_pos nonzero]
        apply List.countP_pos_iff.mpr
        exact ⟨slot, List.mem_of_getElem? found, decide_eq_true nonzero⟩
      · rw [if_neg nonzero]
        exact Nat.zero_le _
    have room : (if slot'.sequence ≠ 0 then 1 else 0) +
        (if writer.pc.fills = true then 1 else 0) ≤ (if slot.sequence ≠ 0 then 1 else 0) + 1 := by
      by_cases filling : writer.pc.fills = true
      · rw [if_pos filling, if_pos (filled filling)]
        split_ifs <;> omega
      · rw [if_neg filling]
        split_ifs <;> omega
    rw [filling_cons] at occupied
    rw [filling_cons, if_pos fills, setSlot, List.countP_set bound, here]
    simp only [decide_eq_true_eq]
    show _ ≤ ring.publishedEvents.toNat + _
    omega
  callers := by
    have callers := ok.callers
    rw [Multiset.map_cons] at callers ⊢
    exact callers
  once := ok.once
  before other member at_ := by
    rcases Multiset.mem_cons.mp member with rfl | member
    · rw [show pc = .reserve from at_] at reserved'
      cases reserved'
    · exact ok.before other (Multiset.mem_cons_of_mem member) at_
  writer other member := by
    rcases Multiset.mem_cons.mp member with rfl | member
    · exact writerOk
    · apply (ok.writer other (Multiset.mem_cons_of_mem member)).of_kept
      · exact id
      · intro owned owns
        rw [slotIndex_setSlot, setSlot, List.getElem?_set_ne]
        exact (unowned other member owned owns).symm
  slot index other held := by
    by_cases here : index = ring.slotIndex sequence
    · subst here
      rcases List.getElem?_eq_some_iff.mp found with ⟨bound, _⟩
      rw [setSlot, List.getElem?_set_self bound] at held
      cases held
      exact slotOk
    · rw [setSlot, List.getElem?_set_ne (Ne.symm here)] at held
      apply (ok.slot index other held).of_kept
      · exact List.length_set
      · exact id
      · intro owner member owned owns place
        rcases Multiset.mem_cons.mp member with rfl | member
        · rw [own owned owns] at place
          exact absurd place.symm here
        · exact ⟨owner, Multiset.mem_cons_of_mem member, owns⟩

/-- What a writer owns no other one does. -/
theorem RingOk.owns_alone {sequence : UInt64} (ok : RingOk ring (writer ::ₘ writers))
    (owns : writer.pc.owned = some sequence) :
    ∀ other ∈ writers, ∀ owned, other.pc.owned = some owned →
      ring.slotIndex owned ≠ ring.slotIndex sequence := by
  intro other member owned owns' same
  rcases (ok.writer writer (Multiset.mem_cons_self _ _)).owns owns with
    ⟨reserved, slot, found, claimed⟩
  rcases (ok.writer other (Multiset.mem_cons_of_mem member)).owns owns' with
    ⟨reserved', slot', found', claimed'⟩
  rw [same, found] at found'
  cases found'
  have equal := or_topBit_inj (reserved.low ok.few) (reserved'.low ok.few)
    (claimed.symm.trans claimed')
  subst equal
  have callers := reserved.2.symm.trans reserved'.2
  rw [Option.some.injEq, Prod.mk.injEq] at callers
  have distinct := ok.callers
  rw [Multiset.map_cons, Multiset.nodup_cons] at distinct
  apply distinct.1
  rw [callers.1]
  exact Multiset.mem_map_of_mem _ member

theorem RingOk.claims {sequence previous : UInt64} {slot : FrameTraceSlot E}
    (ok : RingOk ring (writer ::ₘ writers)) (at_ : writer.pc = .claim sequence previous)
    (found : ring.slots[ring.slotIndex sequence]? = some slot)
    (same : slot.sequence = previous) :
    RingOk (ring.setSlot (ring.slotIndex sequence)
        { slot with sequence := sequence ||| writingSequenceBit })
      ({ writer with pc := .write sequence } ::ₘ writers) := by
  have writerOk := ok.writer writer (Multiset.mem_cons_self _ _)
  unfold WriterOk at writerOk
  rw [at_] at writerOk
  rcases writerOk with ⟨reserved, low, _⟩
  rcases List.getElem?_eq_some_iff.mp found with ⟨bound, _⟩
  have high : (sequence ||| topBit).toNat = 2 ^ 63 + sequence.toNat :=
    toNat_or_topBit (reserved.low ok.few)
  apply ok.sets found
  · intro other member owned owns place
    rcases (ok.writer other (Multiset.mem_cons_of_mem member)).owns owns with
      ⟨reserved', slot', found', claimed⟩
    rw [place, found] at found'
    cases found'
    rw [same] at claimed
    rw [claimed, toNat_or_topBit (reserved'.low ok.few)] at low
    omega
  · rw [at_]
    rfl
  · rfl
  · intro owned owns
    rw [at_] at owns
    cases owns
  · rfl
  · intro fills
    rw [at_] at fills
    cases fills
  · refine ⟨reserved, { slot with sequence := sequence ||| writingSequenceBit }, ?_, rfl⟩
    rw [slotIndex_setSlot, setSlot, List.getElem?_set_self bound]
  · constructor
    · intro small
      have small' : (sequence ||| topBit).toNat < 2 ^ 63 := small
      omega
    · intro _
      refine ⟨_, Multiset.mem_cons_self _ _, sequence, rfl, ?_⟩
      rw [slotIndex_setSlot]

theorem RingOk.writes {sequence : UInt64} {slot : FrameTraceSlot E}
    (ok : RingOk ring (writer ::ₘ writers)) (at_ : writer.pc = .write sequence)
    (found : ring.slots[ring.slotIndex sequence]? = some slot) :
    RingOk (ring.setSlot (ring.slotIndex sequence)
        { slot with event := ⟨sequence, writer.content⟩ })
      ({ writer with pc := .publish sequence } ::ₘ writers) := by
  have owns : writer.pc.owned = some sequence := by
    rw [at_]
    rfl
  rcases (ok.writer writer (Multiset.mem_cons_self _ _)).owns owns with
    ⟨reserved, slot', found', claimed⟩
  rw [found] at found'
  cases found'
  rcases List.getElem?_eq_some_iff.mp found with ⟨bound, _⟩
  have high : slot.sequence.toNat = 2 ^ 63 + sequence.toNat := by
    rw [claimed, toNat_or_topBit (reserved.low ok.few)]
  apply ok.sets found (ok.owns_alone owns)
  · rw [at_]
    rfl
  · rfl
  · intro owned owns'
    rw [at_] at owns'
    exact (Option.some.inj owns').symm
  · rfl
  · intro _ zero
    rw [zero] at high
    have none : (0 : UInt64).toNat = 0 := rfl
    omega
  · refine ⟨reserved, { slot with event := ⟨sequence, writer.content⟩ }, ?_, claimed, rfl⟩
    rw [slotIndex_setSlot, setSlot, List.getElem?_set_self bound]
  · constructor
    · intro small
      have small' : slot.sequence.toNat < 2 ^ 63 := small
      omega
    · intro _
      refine ⟨_, Multiset.mem_cons_self _ _, sequence, rfl, ?_⟩
      rw [slotIndex_setSlot]

theorem RingOk.publishes {sequence : UInt64} {slot : FrameTraceSlot E}
    (ok : RingOk ring (writer ::ₘ writers)) (at_ : writer.pc = .publish sequence)
    (found : ring.slots[ring.slotIndex sequence]? = some slot) :
    RingOk (ring.setSlot (ring.slotIndex sequence) { slot with sequence })
      ({ writer with pc := .count } ::ₘ writers) := by
  have owns : writer.pc.owned = some sequence := by
    rw [at_]
    rfl
  have writerOk := ok.writer writer (Multiset.mem_cons_self _ _)
  unfold WriterOk at writerOk
  rw [at_] at writerOk
  rcases writerOk with ⟨reserved, slot', found', claimed, event⟩
  rw [found] at found'
  cases found'
  have low := reserved.low ok.few
  have positive := reserved.1
  have high : slot.sequence.toNat = 2 ^ 63 + sequence.toNat := by
    rw [claimed, toNat_or_topBit low]
  have nonzero : slot.sequence ≠ 0 := by
    intro zero
    rw [zero] at high
    have none : (0 : UInt64).toNat = 0 := rfl
    omega
  apply ok.sets found (ok.owns_alone owns)
  · rw [at_]
    rfl
  · rfl
  · intro owned owns'
    rw [at_] at owns'
    exact (Option.some.inj owns').symm
  · rfl
  · exact fun _ => nonzero
  · trivial
  · constructor
    · intro _ _
      refine ⟨?_, ?_, writer.caller, ?_⟩
      · show slot.event.eventSequenceId = sequence
        rw [event]
      · show slotIndex _ sequence = _
        rw [slotIndex_setSlot]
      · show Reserved _ _ slot.event.content sequence
        rw [event]
        exact reserved
    · intro large
      exact absurd low (Nat.not_lt_of_ge large)

theorem low_of_and {word : UInt64} (clear : word &&& writingSequenceBit = 0) :
    word.toNat < 2 ^ 63 :=
  and_topBit_eq_zero_iff.mp clear

/-- The writers after a step of one of them. -/
def stepped (writer : TraceWriter E) (writers : Multiset (TraceWriter E)) :
    WriteStep ⊕ Bool → Multiset (TraceWriter E)
  | .inl pc => { writer with pc } ::ₘ writers
  | .inr _ => writers

theorem RingOk.advance {next : WriteStep ⊕ Bool} (ok : RingOk ring (writer ::ₘ writers))
    (room : writer.pc = .reserve → ring.reserved.length + 1 < 2 ^ 63)
    (steps : ring.advance writer = some (after, next)) :
    RingOk after (stepped writer writers next) := by
  have writerOk := ok.writer writer (Multiset.mem_cons_self _ _)
  have accounted := ok.accounted
  have few := ok.few
  rw [uncounted_cons] at accounted
  unfold FrameTraceRing.advance at steps
  unfold WriterOk at writerOk
  cases at_ : writer.pc with
  | reserve =>
      rw [at_] at steps
      cases steps
      exact ok.reserves at_ (room at_)
  | load sequence =>
      rw [at_] at steps writerOk
      rcases Option.bind_eq_some_iff.mp steps with ⟨slot, found, loaded⟩
      by_cases writing : slot.sequence &&& writingSequenceBit ≠ 0
      · simp only [if_pos writing] at loaded
        cases loaded
        exact ok.moves (by rw [at_]; rfl) rfl (by rw [at_]; rfl) (by rw [at_]; rfl) trivial
      · simp only [if_neg writing] at loaded
        by_cases newer : sequence ≤ slot.sequence
        · simp only [if_pos newer] at loaded
          cases loaded
          exact ok.moves (by rw [at_]; rfl) rfl (by rw [at_]; rfl) (by rw [at_]; rfl) trivial
        · simp only [if_neg newer] at loaded
          cases loaded
          apply ok.moves (by rw [at_]; rfl) rfl (by rw [at_]; rfl) (by rw [at_]; rfl)
          exact ⟨writerOk, low_of_and (not_ne_iff.mp writing), UInt64.not_le.mp newer⟩
  | claim sequence previous =>
      rw [at_] at steps
      rcases Option.bind_eq_some_iff.mp steps with ⟨slot, found, exchanged⟩
      by_cases differs : slot.sequence ≠ previous
      · simp only [if_pos differs] at exchanged
        cases exchanged
        exact ok.moves (by rw [at_]; rfl) rfl (by rw [at_]; rfl) (by rw [at_]; rfl) trivial
      · simp only [if_neg differs] at exchanged
        cases exchanged
        exact ok.claims at_ found (not_ne_iff.mp differs)
  | write sequence =>
      rw [at_] at steps
      rcases Option.bind_eq_some_iff.mp steps with ⟨slot, found, written⟩
      cases written
      exact ok.writes at_ found
  | publish sequence =>
      rw [at_] at steps
      rcases Option.bind_eq_some_iff.mp steps with ⟨slot, found, published⟩
      cases published
      exact ok.publishes at_ found
  | count =>
      rw [at_] at steps accounted
      cases steps
      have counted : (ring.publishedEvents + 1).toNat = ring.publishedEvents.toNat + 1 :=
        toNat_add_one (by simp only [WriteStep.hasReserved, if_true] at accounted; omega)
      apply RingOk.leaves ok
      · rfl
      · rfl
      · rfl
      · show (ring.publishedEvents + 1).toNat + ring.supersededWrites.toNat +
          ring.contendedWrites.toNat = _
        omega
      · rw [at_]
        exact counted.ge
      · rw [at_]
        rfl
      · rw [at_]
        rfl
  | contend =>
      rw [at_] at steps accounted
      cases steps
      have counted : (ring.contendedWrites + 1).toNat = ring.contendedWrites.toNat + 1 :=
        toNat_add_one (by simp only [WriteStep.hasReserved, if_true] at accounted; omega)
      apply RingOk.leaves ok
      · rfl
      · rfl
      · rfl
      · show ring.publishedEvents.toNat + ring.supersededWrites.toNat +
          (ring.contendedWrites + 1).toNat = _
        omega
      · rw [at_]
        exact le_rfl
      · rw [at_]
        rfl
      · rw [at_]
        rfl
  | supersede =>
      rw [at_] at steps accounted
      cases steps
      have counted : (ring.supersededWrites + 1).toNat = ring.supersededWrites.toNat + 1 :=
        toNat_add_one (by simp only [WriteStep.hasReserved, if_true] at accounted; omega)
      apply RingOk.leaves ok
      · rfl
      · rfl
      · rfl
      · show ring.publishedEvents.toNat + (ring.supersededWrites + 1).toNat +
          ring.contendedWrites.toNat = _
        omega
      · rw [at_]
        exact le_rfl
      · rw [at_]
        rfl
      · rw [at_]
        rfl

/-- A call that has not taken an id begins to write. -/
theorem RingOk.begins {caller : Option Nat} {content : E} (ok : RingOk ring writers)
    (new : caller ∉ writers.map TraceWriter.caller)
    (fresh : caller ∉ ring.reserved.map Prod.fst) :
    RingOk ring (⟨caller, content, .reserve⟩ ::ₘ writers) where
  few := ok.few
  next := ok.next
  accounted := by
    rw [uncounted_cons]
    exact ok.accounted
  occupied := by
    rw [filling_cons]
    exact ok.occupied
  callers := by
    rw [Multiset.map_cons, Multiset.nodup_cons]
    exact ⟨new, ok.callers⟩
  once := ok.once
  before other member at_ := by
    rcases Multiset.mem_cons.mp member with rfl | member
    · exact fresh
    · exact ok.before other member at_
  writer other member := by
    rcases Multiset.mem_cons.mp member with rfl | member
    · trivial
    · exact ok.writer other member
  slot index slot found := by
    apply (ok.slot index slot found).of_kept rfl id
    intro other member sequence owns _
    exact ⟨other, Multiset.mem_cons_of_mem member, owns⟩

/-- Only the first step of a writer takes an id. -/
theorem advance_reserved {next : WriteStep ⊕ Bool}
    (steps : ring.advance writer = some (after, next)) :
    after.reserved = ring.reserved ∧ writer.pc ≠ .reserve ∨
      writer.pc = .reserve ∧ after.reserved = ring.reserved ++ [(writer.caller, writer.content)] ∧
        next = .inl (.load ring.nextEventSequenceId) := by
  unfold FrameTraceRing.advance at steps
  cases at_ : writer.pc with
  | reserve =>
      rw [at_] at steps
      cases steps
      exact Or.inr ⟨rfl, rfl, rfl⟩
  | load sequence =>
      rw [at_] at steps
      rcases Option.bind_eq_some_iff.mp steps with ⟨slot, _, loaded⟩
      dsimp only at loaded
      split_ifs at loaded <;> cases loaded <;> exact Or.inl ⟨rfl, WriteStep.noConfusion⟩
  | claim sequence previous =>
      rw [at_] at steps
      rcases Option.bind_eq_some_iff.mp steps with ⟨slot, _, exchanged⟩
      split_ifs at exchanged <;> cases exchanged <;> exact Or.inl ⟨rfl, WriteStep.noConfusion⟩
  | write sequence | publish sequence =>
      rw [at_] at steps
      rcases Option.bind_eq_some_iff.mp steps with ⟨slot, _, set⟩
      cases set
      exact Or.inl ⟨rfl, WriteStep.noConfusion⟩
  | count | contend | supersede =>
      rw [at_] at steps
      cases steps
      exact Or.inl ⟨rfl, WriteStep.noConfusion⟩

/-! ## A writer that is alone -/

/-- This id is the last one, and was taken by the call that stops the trace. -/
def Last (ring : FrameTraceRing E) (event : E) (sequence : UInt64) : Prop :=
  ring.reserved.getLast? = some (none, event) ∧ sequence.toNat = ring.reserved.length

/-- The event of that call is in its slot. -/
def Settled (ring : FrameTraceRing E) (event : E) : Prop :=
  ∃ sequence, ring.Last event sequence ∧
    ring.slots[ring.slotIndex sequence]? = some ⟨sequence, ⟨sequence, event⟩⟩

/-- What the call that stops the trace relies on while it writes. -/
def StopWriteOk (ring : FrameTraceRing E) (event : E) : WriteStep → Prop
  | .reserve => True
  | .load sequence => ring.Last event sequence ∧ ∀ slot ∈ ring.slots, slot.sequence < sequence
  | .claim sequence previous =>
      ring.Last event sequence ∧
        ∃ slot, ring.slots[ring.slotIndex sequence]? = some slot ∧ slot.sequence = previous
  | .write sequence | .publish sequence => ring.Last event sequence
  | .count => ring.Settled event
  | .contend | .supersede => False

/-- Without an owner a slot is not claimed, and its sequence is an id that was taken. -/
theorem RingOk.unclaimed {slot : FrameTraceSlot E} (ok : RingOk ring writers)
    (unowned : ∀ writer ∈ writers, writer.pc.owned = none) (member : slot ∈ ring.slots) :
    slot.sequence.toNat < 2 ^ 63 ∧ slot.sequence.toNat ≤ ring.reserved.length := by
  rcases List.mem_iff_getElem?.mp member with ⟨index, found⟩
  have held := ok.slot index slot found
  have low : slot.sequence.toNat < 2 ^ 63 := by
    by_contra large
    rcases held.claimed (not_lt.mp large) with ⟨writer, member, sequence, owned, _⟩
    rw [unowned writer member] at owned
    cases owned
  refine ⟨low, ?_⟩
  by_cases zero : slot.sequence = 0
  · rw [zero]
    exact Nat.zero_le _
  · rcases (held.stored low zero).2.2 with ⟨caller, reserved⟩
    exact reserved.le

theorem RingOk.stop_advance {event : E} {pc : WriteStep} {next : WriteStep ⊕ Bool}
    (ok : RingOk ring {⟨none, event, pc⟩}) (writing : ring.StopWriteOk event pc)
    (steps : ring.advance ⟨none, event, pc⟩ = some (after, next)) :
    match next with
    | .inl pc => after.StopWriteOk event pc
    | .inr published => published = true ∧ after.Settled event := by
  unfold FrameTraceRing.advance at steps
  cases pc with
  | reserve =>
      cases steps
      refine ⟨⟨List.getLast?_concat, ?_⟩, ?_⟩
      · rw [ok.next, FrameTraceRing.reserve, List.length_append]
        rfl
      · intro slot member
        have unowned : ∀ writer ∈ ({⟨none, event, .reserve⟩} : Multiset (TraceWriter E)),
            writer.pc.owned = none := by
          intro writer member
          rw [Multiset.mem_singleton.mp member]
          rfl
        rw [UInt64.lt_iff_toNat_lt, ok.next]
        exact Nat.lt_succ_of_le (ok.unclaimed unowned member).2
  | load sequence =>
      rcases Option.bind_eq_some_iff.mp steps with ⟨slot, found, loaded⟩
      have member := List.mem_of_getElem? found
      have unowned : ∀ writer ∈ ({⟨none, event, .load sequence⟩} : Multiset (TraceWriter E)),
          writer.pc.owned = none := by
        intro writer member
        rw [Multiset.mem_singleton.mp member]
        rfl
      have clear : slot.sequence &&& writingSequenceBit = 0 :=
        and_topBit_eq_zero_iff.mpr (ok.unclaimed unowned member).1
      have older : ¬ sequence ≤ slot.sequence := UInt64.not_le.mpr (writing.2 slot member)
      simp only [clear, ne_eq, not_true_eq_false, if_false, if_neg older] at loaded
      cases loaded
      exact ⟨writing.1, slot, found, rfl⟩
  | claim sequence previous =>
      rcases Option.bind_eq_some_iff.mp steps with ⟨slot, found, exchanged⟩
      rcases writing with ⟨last, slot', found', same⟩
      rw [found] at found'
      cases found'
      simp only [same, ne_eq, not_true_eq_false, if_false] at exchanged
      cases exchanged
      exact last
  | write sequence =>
      rcases Option.bind_eq_some_iff.mp steps with ⟨slot, found, written⟩
      cases written
      exact writing
  | publish sequence =>
      rcases Option.bind_eq_some_iff.mp steps with ⟨slot, found, published⟩
      cases published
      have writerOk := ok.writer _ (Multiset.mem_singleton_self _)
      rcases writerOk with ⟨_, slot', found', _, event'⟩
      rw [found] at found'
      cases found'
      rcases List.getElem?_eq_some_iff.mp found with ⟨bound, _⟩
      refine ⟨sequence, writing, ?_⟩
      rw [slotIndex_setSlot, setSlot, List.getElem?_set_self bound, event']
  | count =>
      cases steps
      exact ⟨rfl, writing⟩
  | contend | supersede => exact writing.elim

end FrameTraceRing

end Gpui
