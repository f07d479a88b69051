import Gpui.Entity.Core

/-!
# Counts and handles

A count is the number of strong handles, and the ids with count zero are those in the
list, apart from the one whose last handle is just being dropped.
-/

namespace Gpui.Entities

open Gpui.Library

variable {E : Type} {S : SecondaryMap E}

namespace World

def counts (self : World S) : EntityId → Option Nat :=
  self.map.refCounts.counts

def droppedEntityIds (self : World S) : List EntityId :=
  self.map.refCounts.droppedEntityIds

structure Counted (world : World S) : Prop where
  count : ∀ id, (world.counts id).getD 0 = world.live id
  dropped : ∀ id, id ∈ world.droppedEntityIds ↔
    world.counts id = some 0 ∧ world.dropping ≠ some id
  nodup : world.droppedEntityIds.Nodup
  dropping : ∀ id, world.dropping = some id → world.counts id = some 0
  upgrading : ∀ entry ∈ world.upgrading,
    world.counts entry.1 ≠ none ∧ (entry.2 = 0 → world.counts entry.1 = some 0)
  oneSlot : ∀ id other, world.counts id ≠ none → world.counts other ≠ none →
    id.index = other.index → id = other

theorem counted_new : Counted (new S) where
  count _ := rfl
  dropped id := by
    constructor
    · exact fun member => absurd member List.not_mem_nil
    · rintro ⟨zero, _⟩
      cases zero
  nodup := List.nodup_nil
  dropping _ dropping := by cases dropping
  upgrading _ member := absurd member List.not_mem_nil
  oneSlot _ _ some := absurd rfl some

theorem live_of_mem {world : World S} {id : EntityId} (member : id ∈ world.slots ++ world.handles) :
    0 < world.live id := by
  rcases List.mem_append.mp member with slot | handle
  · exact Nat.add_pos_left (List.count_pos_iff.mpr slot) _
  · exact Nat.add_pos_right _ (List.count_pos_iff.mpr handle)

namespace Counted

variable {world next : World S}

theorem counts_of_live (counted : Counted world) {id : EntityId} (live : 0 < world.live id) :
    world.counts id = some (world.live id) := by
  have count := counted.count id
  cases here : world.counts id with
  | none =>
      rw [here] at count
      exact absurd count live.ne
  | some count' =>
      rw [here] at count
      exact congrArg some count

theorem live_of_counts (counted : Counted world) {id : EntityId} {count : Nat}
    (here : world.counts id = some count) : world.live id = count := by
  rw [← counted.count id, here]
  rfl

/-- A step that leaves the table and the number of handles alone. -/
theorem of_same (counted : Counted world) (refCounts : next.map.refCounts = world.map.refCounts)
    (live : ∀ id, next.live id = world.live id) (dropping : next.dropping = world.dropping)
    (upgrading : ∀ entry ∈ next.upgrading, entry ∈ world.upgrading ∨
      world.counts entry.1 = some entry.2) : Counted next := by
  have counts : next.counts = world.counts := congrArg EntityRefCounts.counts refCounts
  have dropped : next.droppedEntityIds = world.droppedEntityIds :=
    congrArg EntityRefCounts.droppedEntityIds refCounts
  constructor
  · intro id
    rw [counts, live]
    exact counted.count id
  · intro id
    rw [dropped, counts, dropping]
    exact counted.dropped id
  · rw [dropped]
    exact counted.nodup
  · intro id dropping'
    rw [counts]
    exact counted.dropping id (dropping ▸ dropping')
  · intro entry member
    rw [counts]
    rcases upgrading entry member with old | loaded
    · exact counted.upgrading entry old
    · rw [loaded]
      exact ⟨Option.some_ne_none _, congrArg some⟩
  · rw [counts]
    exact counted.oneSlot

theorem counts_ne_zero (counted : Counted world) {id : EntityId} (live : 0 < world.live id) :
    world.counts id ≠ some 0 := by
  rw [counted.counts_of_live live]
  exact fun zero => live.ne (Option.some.inj zero).symm

theorem alone_of_live (counted : Counted world) {id : EntityId} (live : 0 < world.live id) :
    ∀ other, world.counts other ≠ none → other.index = id.index → other = id := by
  intro other there
  apply counted.oneSlot other id there
  rw [counted.counts_of_live live]
  exact Option.some_ne_none _

/-- A step that sets the count of an id, alone in its slot, to the new number of handles. -/
theorem of_setCount (counted : Counted world) {id : EntityId} {count : Nat}
    (notZero : world.counts id ≠ some 0)
    (alone : ∀ other, world.counts other ≠ none → other.index = id.index → other = id)
    (refCounts : next.map.refCounts = world.map.refCounts.setCount id count)
    (live : ∀ other, next.live other = if other = id then count else world.live other)
    (dropping : next.dropping = if count = 0 then some id else world.dropping)
    (free : count = 0 → world.dropping = none)
    (upgrading : ∀ entry ∈ next.upgrading, entry ∈ world.upgrading) : Counted next := by
  have counts : next.counts = Function.update world.counts id (some count) :=
    congrArg EntityRefCounts.counts refCounts
  have dropped : next.droppedEntityIds = world.droppedEntityIds := by
    rw [droppedEntityIds, refCounts]
    rfl
  constructor
  · intro other
    rw [counts, live]
    split
    next same =>
      rw [same, Function.update_self]
      rfl
    next differs =>
      rw [Function.update_of_ne differs]
      exact counted.count other
  · intro other
    rw [dropped, counted.dropped, counts, dropping]
    by_cases same : other = id
    · rw [same, Function.update_self]
      constructor
      · exact fun old => absurd old.1 notZero
      · rintro ⟨zero, notDropping⟩
        rw [if_pos (Option.some.inj zero)] at notDropping
        exact absurd rfl notDropping
    · rw [Function.update_of_ne same]
      split
      next zero =>
        rw [free zero]
        simp [Ne.symm same]
      next => rfl
  · rw [dropped]
    exact counted.nodup
  · intro other dropping'
    rw [counts]
    rw [dropping] at dropping'
    split at dropping'
    next zero =>
      rcases Option.some.inj dropping' with rfl
      rw [Function.update_self, zero]
    next =>
      have zero := counted.dropping other dropping'
      have differs : other ≠ id := fun same => notZero (same ▸ zero)
      rw [Function.update_of_ne differs]
      exact zero
  · intro entry member
    rcases counted.upgrading entry (upgrading entry member) with ⟨there, zero⟩
    rw [counts]
    by_cases same : entry.1 = id
    · rw [same, Function.update_self]
      exact ⟨Option.some_ne_none _, fun loaded => absurd (same ▸ zero loaded) notZero⟩
    · rw [Function.update_of_ne same]
      exact ⟨there, zero⟩
  · intro first second firstThere secondThere index
    rw [counts] at firstThere secondThere
    by_cases isFirst : first = id
    · by_cases isSecond : second = id
      · rw [isFirst, isSecond]
      · rw [Function.update_of_ne isSecond] at secondThere
        exact absurd (alone second secondThere (isFirst ▸ index.symm)) isSecond
    · rw [Function.update_of_ne isFirst] at firstThere
      by_cases isSecond : second = id
      · exact absurd (alone first firstThere (isSecond ▸ index)) isFirst
      · rw [Function.update_of_ne isSecond] at secondThere
        exact counted.oneSlot first second firstThere secondThere index

end Counted

/-! ## Taking the dropped entities -/

/-- What `take_dropped` leaves of a map. -/
structure Taken (map after : EntityMap S) (ids : List EntityId) : Prop where
  counts : ∀ id, after.refCounts.counts id = if id ∈ ids then none else map.refCounts.counts id
  entities : ∀ id, S.get after.entities id = if id ∈ ids then none else S.get map.entities id

theorem takeEach_eq {map : EntityMap S} {ids : List EntityId} (nodup : ids.Nodup)
    (zero : ∀ id ∈ ids, map.refCounts.counts id = some 0) :
    ∃ after, map.takeEach ids =
      some (ids.filterMap fun id => (S.get map.entities id).map fun entity => (id, entity), after) ∧
      Taken map after ids ∧ after.refCounts.droppedEntityIds = map.refCounts.droppedEntityIds := by
  induction ids generalizing map with
  | nil => exact ⟨map, rfl, ⟨fun _ => rfl, fun _ => rfl⟩, rfl⟩
  | cons id ids ih =>
      rcases List.nodup_cons.mp nodup with ⟨absent, nodup⟩
      have first : map.refCounts.counts id = some 0 := zero id List.mem_cons_self
      let one : EntityMap S :=
        { entities := S.remove id map.entities
          accessedEntities := Function.update map.accessedEntities id false
          refCounts :=
            { map.refCounts with counts := Function.update map.refCounts.counts id none } }
      have taken : map.takeOne id =
          some ((S.get map.entities id).map fun entity => (id, entity), one) := by
        rw [EntityMap.takeOne, first]
        rfl
      have still : ∀ other ∈ ids, one.refCounts.counts other = some 0 := by
        intro other member
        have differs : other ≠ id := fun same => absent (same ▸ member)
        exact (Function.update_of_ne differs _ _).trans
          (zero other (List.mem_cons_of_mem _ member))
      rcases ih nodup still with ⟨after, rest, ⟨counts, entities⟩, dropped⟩
      have others : ids.filterMap (fun other =>
            (S.get one.entities other).map fun entity => (other, entity)) =
          ids.filterMap fun other => (S.get map.entities other).map fun entity => (other, entity) := by
        apply List.filterMap_congr
        intro other member
        have differs : other ≠ id := fun same => absent (same ▸ member)
        change (S.get (S.remove id map.entities) other).map _ = _
        rw [S.get_remove, Function.update_of_ne differs]
      refine ⟨after, ?_, ⟨fun other => ?_, fun other => ?_⟩, dropped⟩
      · rw [EntityMap.takeEach, taken]
        change ((one.takeEach ids).bind fun rest => some (_, rest.2)) = _
        rw [rest, others, List.filterMap_cons]
        cases S.get map.entities id <;> rfl
      · rw [counts]
        change (if other ∈ ids then none else Function.update map.refCounts.counts id none other) = _
        by_cases same : other = id
        · rw [same, Function.update_self, if_neg absent, if_pos List.mem_cons_self]
        · rw [Function.update_of_ne same]
          simp [same]
      · rw [entities]
        change (if other ∈ ids then none else S.get (S.remove id map.entities) other) = _
        by_cases same : other = id
        · rw [same, S.get_remove, Function.update_self, if_neg absent, if_pos List.mem_cons_self]
        · rw [S.get_remove, Function.update_of_ne same]
          simp [same]

/-- Every `unwrap` and assertion of `take_dropped` succeeds. -/
theorem Counted.takeDropped_eq {world : World S} (counted : Counted world) :
    ∃ after, world.map.takeDropped =
      some (world.droppedEntityIds.filterMap fun id =>
        (S.get world.map.entities id).map fun entity => (id, entity), after) ∧
      Taken world.map after world.droppedEntityIds ∧ after.refCounts.droppedEntityIds = [] := by
  have zero : ∀ id ∈ world.droppedEntityIds, world.counts id = some 0 :=
    fun id member => ((counted.dropped id).mp member).1
  let map : EntityMap S :=
    { world.map with refCounts := { world.map.refCounts with droppedEntityIds := [] } }
  have stillZero : ∀ id ∈ world.droppedEntityIds, map.refCounts.counts id = some 0 := zero
  rcases takeEach_eq counted.nodup stillZero with ⟨after, taken, ⟨counts, entities⟩, dropped⟩
  exact ⟨after, taken, ⟨counts, entities⟩, dropped⟩

/-! ## Steps -/

theorem count_cons_eq (ids : List EntityId) (id other : EntityId) :
    (id :: ids).count other = ids.count other + if other = id then 1 else 0 := by
  rw [List.count_cons]
  simp only [beq_iff_eq, @eq_comm _ id other]

theorem count_erase_eq (ids : List EntityId) (id other : EntityId) :
    (ids.erase id).count other = ids.count other - if other = id then 1 else 0 := by
  rw [List.count_erase]
  simp only [beq_iff_eq, @eq_comm _ id other]

theorem live_insert {world : World S} {id : EntityId} (slot : id ∈ world.slots)
    (other : EntityId) :
    (world.slots.erase id).count other + (id :: world.handles).count other = world.live other := by
  have positive := List.count_pos_iff.mpr slot
  rw [count_cons_eq, count_erase_eq, live]
  split
  next same =>
    rw [← same] at positive
    omega
  next => omega

theorem live_cons_handle (world : World S) (id other : EntityId) :
    world.slots.count other + (id :: world.handles).count other =
      if other = id then world.live id + 1 else world.live other := by
  rw [count_cons_eq, live, live]
  split
  next same => rw [same, Nat.add_assoc]
  next => rfl

theorem live_cons_slot (world : World S) (id other : EntityId) :
    (id :: world.slots).count other + world.handles.count other =
      if other = id then world.live id + 1 else world.live other := by
  rw [count_cons_eq, live, live]
  split
  next same =>
    rw [same]
    omega
  next => rfl

theorem live_erase {world : World S} {id : EntityId} {slot : Bool}
    (held : id ∈ (if slot then world.slots else world.handles)) (other : EntityId) :
    (if slot then world.slots.erase id else world.slots).count other +
        (if slot then world.handles else world.handles.erase id).count other =
      if other = id then world.live id - 1 else world.live other := by
  cases slot with
  | false =>
      have positive := List.count_pos_iff.mpr held
      change world.slots.count other + (world.handles.erase id).count other = _
      rw [count_erase_eq, live, live]
      split
      next same =>
        rw [same]
        simp only [Bool.false_eq_true, if_false] at positive
        omega
      next => rfl
  | true =>
      have positive := List.count_pos_iff.mpr held
      change (world.slots.erase id).count other + world.handles.count other = _
      rw [count_erase_eq, live, live]
      split
      next same =>
        rw [same]
        simp only [if_true] at positive
        omega
      next => rfl

theorem live_of_held {world : World S} {id : EntityId} {slot : Bool}
    (held : id ∈ (if slot then world.slots else world.handles)) : 0 < world.live id := by
  apply live_of_mem
  cases slot with
  | false => exact List.mem_append_right _ held
  | true => exact List.mem_append_left _ held

section Steps

variable {world next : World S}

theorem Counted.reserve (counted : Counted world) {id : EntityId}
    (vacant : ∀ other, world.counts other ≠ none → other.index ≠ id.index)
    (steps : world.step (.reserve id) = some next) : Counted next := by
  rcases Option.ite_none_right_eq_some.mp steps with ⟨_, same⟩
  rcases Option.some.inj same with rfl
  have absent : world.counts id = none := by
    by_contra there
    exact vacant id there rfl
  have noHandle : world.live id = 0 := by
    rw [← counted.count id, absent]
    rfl
  have notZero : world.counts id ≠ some 0 := by
    rw [absent]
    exact Option.some_ne_none _ ∘ Eq.symm
  refine counted.of_setCount notZero (fun other there index => absurd index (vacant other there))
    rfl (fun other => ?_) rfl (fun zero => absurd zero Nat.one_ne_zero) ?_
  · refine (live_cons_slot world id other).trans ?_
    rw [noHandle]
  · exact fun _ member => member

theorem Counted.drop (counted : Counted world) {id : EntityId} {slot : Bool}
    (steps : world.step (.drop id slot) = some next) : Counted next := by
  rcases Option.ite_none_right_eq_some.mp steps with ⟨⟨free, held⟩, steps⟩
  have live := live_of_held held
  rcases Option.bind_eq_some_iff.mp steps with ⟨⟨refCounts, last⟩, released, same⟩
  rcases Option.some.inj same with rfl
  rcases Option.bind_eq_some_iff.mp released with ⟨prevCount, here, result⟩
  have count : world.live id = prevCount := counted.live_of_counts here
  rw [← count] at result
  rw [if_neg live.ne'] at result
  rcases Option.some.inj result with ⟨⟩
  refine counted.of_setCount (counted.counts_ne_zero live) (counted.alone_of_live live) rfl
    (live_erase held) ?_ (fun _ => free) ?_
  · by_cases last : world.live id = 1
    · simp [last]
    · have more : world.live id - 1 ≠ 0 := by omega
      simp [last, more, free]
  · exact fun _ member => member

theorem Counted.pushDropped (counted : Counted world)
    (steps : world.step .pushDropped = some next) : Counted next := by
  rcases Option.ite_none_right_eq_some.mp steps with ⟨_, steps⟩
  rcases Option.bind_eq_some_iff.mp steps with ⟨id, dropping, same⟩
  rcases Option.some.inj same with rfl
  have zero := counted.dropping id dropping
  have absent : id ∉ world.droppedEntityIds := fun member =>
    ((counted.dropped id).mp member).2 dropping
  refine ⟨counted.count, fun other => ?_, ?_, ?_, counted.upgrading, counted.oneSlot⟩
  · change other ∈ world.droppedEntityIds ++ [id] ↔ world.counts other = some 0 ∧ none ≠ some other
    rw [List.mem_append, List.mem_singleton, counted.dropped, dropping]
    constructor
    · rintro (⟨old, _⟩ | rfl)
      · exact ⟨old, Option.some_ne_none _ ∘ Eq.symm⟩
      · exact ⟨zero, Option.some_ne_none _ ∘ Eq.symm⟩
    · rintro ⟨old, _⟩
      by_cases same : other = id
      · exact Or.inr same
      · exact Or.inl ⟨old, fun here => same (Option.some.inj here).symm⟩
  · exact counted.nodup.append (List.nodup_singleton id) (List.disjoint_singleton.mpr absent)
  · exact fun _ none => absurd none (Option.some_ne_none _ ∘ Eq.symm)

theorem Counted.takeDropped (counted : Counted world)
    (steps : world.step .takeDropped = some next) : Counted next := by
  rcases Option.ite_none_right_eq_some.mp steps with ⟨⟨free, noUpgrade⟩, steps⟩
  rcases counted.takeDropped_eq with ⟨after, taken, ⟨counts, _⟩, empty⟩
  rcases Option.bind_eq_some_iff.mp steps with ⟨_, here, same⟩
  rcases Option.some.inj (taken.symm.trans here) with rfl
  rcases Option.some.inj same with rfl
  have zero : ∀ {id}, id ∈ world.droppedEntityIds ↔ world.counts id = some 0 := by
    intro id
    rw [counted.dropped, free]
    exact and_iff_left (Option.some_ne_none _ ∘ Eq.symm)
  have kept : ∀ {id}, after.refCounts.counts id ≠ none → world.counts id ≠ none := by
    intro id there
    rw [counts] at there
    split at there
    · exact absurd rfl there
    · exact there
  constructor
  · intro id
    change (after.refCounts.counts id).getD 0 = world.live id
    rw [counts, ← counted.count id]
    split
    next member =>
      rw [zero.mp member]
      rfl
    next => rfl
  · intro id
    change id ∈ after.refCounts.droppedEntityIds ↔ after.refCounts.counts id = some 0 ∧ _
    rw [empty, counts]
    constructor
    · exact fun member => absurd member List.not_mem_nil
    · rintro ⟨here, _⟩
      split at here
      · cases here
      next absent => exact absurd (zero.mpr here) absent
  · change after.refCounts.droppedEntityIds.Nodup
    rw [empty]
    exact List.nodup_nil
  · intro id dropping
    exact absurd (free.symm.trans dropping) (Option.some_ne_none _ ∘ Eq.symm)
  · intro entry member
    change entry ∈ world.upgrading at member
    rw [noUpgrade] at member
    exact absurd member List.not_mem_nil
  · intro first second firstThere secondThere
    exact counted.oneSlot first second (kept firstThere) (kept secondThere)

theorem Counted.step (counted : Counted world) {event : EntityEvent E}
    (vacant : world.SlotVacant event) (steps : world.step event = some next) : Counted next := by
  cases event with
  | reserve id => exact counted.reserve vacant steps
  | insert id entity =>
      rcases Option.ite_none_right_eq_some.mp steps with ⟨slot, same⟩
      rcases Option.some.inj same with rfl
      exact counted.of_same rfl (live_insert slot) rfl fun _ => Or.inl
  | lease id =>
      rcases Option.ite_none_right_eq_some.mp steps with ⟨_, steps⟩
      rcases Option.bind_eq_some_iff.mp steps with ⟨⟨entity, map⟩, leased, same⟩
      rcases Option.bind_eq_some_iff.mp leased with ⟨_, _, fields⟩
      rcases Option.some.inj same with rfl
      rcases Option.some.inj fields with ⟨⟩
      exact counted.of_same rfl (fun _ => rfl) rfl fun _ => Or.inl
  | endLease id =>
      rcases Option.bind_eq_some_iff.mp steps with ⟨lease, _, same⟩
      rcases Option.some.inj same with rfl
      exact counted.of_same rfl (fun _ => rfl) rfl fun _ => Or.inl
  | clone id =>
      rcases Option.ite_none_right_eq_some.mp steps with ⟨held, steps⟩
      have live := live_of_mem held
      rcases Option.bind_eq_some_iff.mp steps with ⟨refCounts, cloned, same⟩
      rcases Option.some.inj same with rfl
      rcases Option.bind_eq_some_iff.mp cloned with ⟨prevCount, here, result⟩
      have count : world.live id = prevCount := counted.live_of_counts here
      rw [← count, if_neg live.ne'] at result
      rcases Option.some.inj result with rfl
      exact counted.of_setCount (counted.counts_ne_zero live) (counted.alone_of_live live) rfl
        (live_cons_handle world id) rfl (fun zero => absurd zero (Nat.succ_ne_zero _))
        fun _ member => member
  | drop id slot => exact counted.drop steps
  | pushDropped => exact counted.pushDropped steps
  | downgrade id =>
      rcases Option.ite_none_right_eq_some.mp steps with ⟨_, same⟩
      rcases Option.some.inj same with rfl
      exact counted.of_same rfl (fun _ => rfl) rfl fun _ => Or.inl
  | upgradeMissing id =>
      rcases Option.ite_none_right_eq_some.mp steps with ⟨_, same⟩
      rcases Option.some.inj same with rfl
      exact counted
  | upgradeLoad id =>
      rcases Option.ite_none_right_eq_some.mp steps with ⟨_, steps⟩
      rcases Option.bind_eq_some_iff.mp steps with ⟨loaded, here, same⟩
      rcases Option.some.inj same with rfl
      refine counted.of_same rfl (fun _ => rfl) rfl fun entry member => ?_
      rcases List.mem_cons.mp member with rfl | old
      · exact Or.inr here
      · exact Or.inl old
  | upgradeZero id =>
      rcases Option.ite_none_right_eq_some.mp steps with ⟨_, same⟩
      rcases Option.some.inj same with rfl
      exact counted.of_same rfl (fun _ => rfl) rfl fun _ member =>
        Or.inl (List.mem_of_mem_erase member)
  | upgradeExchange id loaded =>
      rcases Option.ite_none_right_eq_some.mp steps with ⟨⟨_, notZero, here⟩, same⟩
      rcases Option.some.inj same with rfl
      have count : world.live id = loaded := counted.live_of_counts here
      have live : 0 < world.live id := by omega
      refine counted.of_setCount (counted.counts_ne_zero live) (counted.alone_of_live live) rfl
        (fun other => ?_) rfl (fun zero => absurd zero (Nat.succ_ne_zero _))
        fun _ member => List.mem_of_mem_erase member
      rw [← count]
      exact live_cons_handle world id other
  | upgradeRetry id loaded =>
      rcases Option.ite_none_right_eq_some.mp steps with ⟨_, steps⟩
      rcases Option.bind_eq_some_iff.mp steps with ⟨actual, here, same⟩
      rcases Option.some.inj same with rfl
      refine counted.of_same rfl (fun _ => rfl) rfl fun entry member => ?_
      rcases List.mem_cons.mp member with rfl | old
      · exact Or.inr here
      · exact Or.inl (List.mem_of_mem_erase old)
  | takeDropped => exact counted.takeDropped steps

end Steps

end World

end Gpui.Entities
