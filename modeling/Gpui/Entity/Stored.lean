import Gpui.Entity.Counted

/-!
# Entities inserted and returned

Every entity inserted is in the map, leased, or returned, and only once.  The ids of
those not returned have counts, so the slot map does not hand out their slots.
-/

namespace Gpui.Entities

open Gpui.Library

variable {E : Type} {S : SecondaryMap E}

namespace World

structure Stored (world : World S) (stored : List (EntityId × E)) : Prop where
  get : ∀ id entity, S.get world.map.entities id = some entity ↔ (id, entity) ∈ stored
  nodup : ((stored ++ world.leases).map Prod.fst).Nodup
  counted : ∀ entry ∈ stored ++ world.leases, world.counts entry.1 ≠ none
  slots : ∀ entry ∈ stored ++ world.leases, entry.1 ∉ world.slots
  slotsNodup : world.slots.Nodup
  conserved : world.inserted.Perm (world.returned ++ (stored ++ world.leases))

theorem stored_new : Stored (new S) [] where
  get id entity := by
    change S.get S.new id = some entity ↔ _
    rw [S.get_new]
    constructor
    · exact fun none => absurd none (Option.some_ne_none _ ∘ Eq.symm)
    · exact fun member => absurd member List.not_mem_nil
  nodup := List.nodup_nil
  counted _ member := absurd member List.not_mem_nil
  slots _ member := absurd member List.not_mem_nil
  slotsNodup := List.nodup_nil
  conserved := .nil

namespace Stored

variable {world next : World S} {stored : List (EntityId × E)}

/-- A step that moves no entity. -/
theorem of_same (old : Stored world stored) (entities : next.map.entities = world.map.entities)
    (leases : next.leases = world.leases) (inserted : next.inserted = world.inserted)
    (returned : next.returned = world.returned)
    (counts : ∀ id, world.counts id ≠ none → next.counts id ≠ none)
    (slots : next.slots.Sublist world.slots) : Stored next stored := by
  constructor
  · rw [entities]
    exact old.get
  · rw [leases]
    exact old.nodup
  · rw [leases]
    exact fun entry member => counts entry.1 (old.counted entry member)
  · rw [leases]
    exact fun entry member inSlots => old.slots entry member (slots.subset inSlots)
  · exact old.slotsNodup.sublist slots
  · rw [inserted, returned, leases]
    exact old.conserved

/-- A step that moves entities between the map and the leases. -/
theorem of_moved (old : Stored world stored) {moved : List (EntityId × E)}
    (get : ∀ id entity, S.get next.map.entities id = some entity ↔ (id, entity) ∈ moved)
    (entries : (moved ++ next.leases).Perm (stored ++ world.leases))
    (inserted : next.inserted = world.inserted) (returned : next.returned = world.returned)
    (refCounts : next.map.refCounts = world.map.refCounts) (slots : next.slots = world.slots) :
    Stored next moved := by
  have counts : next.counts = world.counts := congrArg EntityRefCounts.counts refCounts
  constructor
  · exact get
  · exact ((entries.map _).nodup_iff).mpr old.nodup
  · rw [counts]
    exact fun entry member => old.counted entry (entries.mem_iff.mp member)
  · rw [slots]
    exact fun entry member => old.slots entry (entries.mem_iff.mp member)
  · rw [slots]
    exact old.slotsNodup
  · rw [inserted, returned]
    exact old.conserved.trans (entries.symm.append_left _)

theorem nodup_stored (old : Stored world stored) : (stored.map Prod.fst).Nodup := by
  have both := old.nodup
  rw [List.map_append] at both
  exact (List.nodup_append.mp both).1

/-- No other id of the slot of a handle has an entity. -/
theorem vacant (old : Stored world stored) (counted : Counted world) {id : EntityId}
    (there : world.counts id ≠ none) (absent : id ∉ stored.map Prod.fst) :
    ∀ other : EntityId, other.index = id.index → S.get world.map.entities other = none := by
  intro other index
  by_contra held
  rcases Option.ne_none_iff_exists'.mp held with ⟨entity, here⟩
  have member := (old.get other entity).mp here
  have otherThere := old.counted _ (List.mem_append_left _ member)
  rcases counted.oneSlot other id otherThere there index with rfl
  exact absent (List.mem_map_of_mem member)

theorem get_insert (old : Stored world stored) (counted : Counted world) {id : EntityId}
    {entity : E} (there : world.counts id ≠ none) (absent : id ∉ stored.map Prod.fst)
    (other : EntityId) (found : E) :
    S.get (S.insert id entity world.map.entities) other = some found ↔
      (other, found) ∈ (id, entity) :: stored := by
  rw [S.get_insert (old.vacant counted there absent), List.mem_cons]
  by_cases same : other = id
  · rw [same, Function.update_self]
    constructor
    · exact fun here => Or.inl (congrArg _ (Option.some.inj here).symm)
    · rintro (here | member)
      · rw [(Prod.mk.inj here).2]
      · exact absurd (List.mem_map_of_mem member) absent
  · rw [Function.update_of_ne same, old.get]
    constructor
    · exact Or.inr
    · rintro (here | member)
      · exact absurd (Prod.mk.inj here).1 same
      · exact member

end Stored

theorem perm_cons_filter {stored : List (EntityId × E)} {id : EntityId} {entity : E}
    (nodup : (stored.map Prod.fst).Nodup) (member : (id, entity) ∈ stored) :
    stored.Perm ((id, entity) :: stored.filter fun entry => entry.1 ≠ id) := by
  have absent : (id, entity) ∉ stored.filter fun entry => entry.1 ≠ id := by
    simp [List.mem_filter]
  rw [List.perm_ext_iff_of_nodup nodup.of_map
    (List.nodup_cons.mpr ⟨absent, nodup.of_map.filter _⟩)]
  intro entry
  rw [List.mem_cons, List.mem_filter]
  constructor
  · intro held
    by_cases same : entry.1 = id
    · exact Or.inl (List.inj_on_of_nodup_map nodup held member same)
    · exact Or.inr ⟨held, decide_eq_true same⟩
  · rintro (rfl | ⟨held, _⟩)
    · exact member
    · exact held

theorem perm_cons_eraseP {α : Type} {items : List α} {passes : α → Bool} {item : α}
    (found : items.find? passes = some item) : items.Perm (item :: items.eraseP passes) := by
  induction items with
  | nil => cases found
  | cons first items ih =>
      cases passed : passes first with
      | true =>
          rw [List.find?_cons_of_pos passed] at found
          rw [List.eraseP_cons_of_pos passed, Option.some.inj found]
      | false =>
          have failed : ¬ passes first = true := by simp [passed]
          rw [List.find?_cons_of_neg failed] at found
          rw [List.eraseP_cons_of_neg failed]
          exact ((ih found).cons first).trans (.swap _ _ _)

section Steps

variable {world next : World S} {stored : List (EntityId × E)}

theorem Stored.reserve (old : Stored world stored) (counted : Counted world) {id : EntityId}
    (vacant : ∀ other, world.counts other ≠ none → other.index ≠ id.index)
    (steps : world.step (.reserve id) = some next) : Stored next stored := by
  rcases Option.ite_none_right_eq_some.mp steps with ⟨_, same⟩
  rcases Option.some.inj same with rfl
  have absent : world.counts id = none := by
    by_contra there
    exact vacant id there rfl
  have noSlot : id ∉ world.slots := by
    intro slot
    have live := live_of_mem (List.mem_append_left world.handles slot)
    rw [counted.counts_of_live live] at absent
    cases absent
  constructor
  · exact old.get
  · exact old.nodup
  · intro entry member
    change Function.update world.counts id (some 1) entry.1 ≠ none
    by_cases same : entry.1 = id
    · rw [same, Function.update_self]
      exact Option.some_ne_none 1
    · rw [Function.update_of_ne same]
      exact old.counted entry member
  · intro entry member inSlots
    rcases List.mem_cons.mp inSlots with same | slot
    · exact old.counted entry member (same ▸ absent)
    · exact old.slots entry member slot
  · exact List.nodup_cons.mpr ⟨noSlot, old.slotsNodup⟩
  · exact old.conserved

theorem Stored.insert (old : Stored world stored) (counted : Counted world) {id : EntityId}
    {entity : E} (steps : world.step (.insert id entity) = some next) :
    Stored next ((id, entity) :: stored) := by
  rcases Option.ite_none_right_eq_some.mp steps with ⟨slot, same⟩
  rcases Option.some.inj same with rfl
  have live := live_of_mem (List.mem_append_left world.handles slot)
  have there : world.counts id ≠ none := by
    rw [counted.counts_of_live live]
    exact Option.some_ne_none _
  have absent : id ∉ (stored ++ world.leases).map Prod.fst := by
    intro member
    rcases List.mem_map.mp member with ⟨entry, held, rfl⟩
    exact old.slots entry held slot
  have absentStored : id ∉ stored.map Prod.fst := by
    rw [List.map_append] at absent
    exact fun member => absent (List.mem_append_left _ member)
  constructor
  · exact old.get_insert counted there absentStored
  · exact List.nodup_cons.mpr ⟨absent, old.nodup⟩
  · exact List.forall_mem_cons.mpr ⟨there, old.counted⟩
  · refine List.forall_mem_cons.mpr ⟨old.slotsNodup.not_mem_erase, ?_⟩
    exact fun entry member inSlots => old.slots entry member (List.mem_of_mem_erase inSlots)
  · exact old.slotsNodup.erase id
  · exact (old.conserved.cons _).trans List.perm_middle.symm

theorem Stored.lease (old : Stored world stored) {id : EntityId}
    (steps : world.step (.lease id) = some next) :
    Stored next (stored.filter fun entry => entry.1 ≠ id) := by
  rcases Option.ite_none_right_eq_some.mp steps with ⟨_, steps⟩
  rcases Option.bind_eq_some_iff.mp steps with ⟨⟨entity, map⟩, leased, same⟩
  rcases Option.bind_eq_some_iff.mp leased with ⟨_, here, fields⟩
  rcases Option.some.inj same with rfl
  rcases Option.some.inj fields with ⟨⟩
  have member := (old.get id entity).mp here
  refine old.of_moved (fun other found => ?_) ?_ rfl rfl rfl rfl
  · change S.get (S.remove id world.map.entities) other = some found ↔ _
    rw [S.get_remove, List.mem_filter]
    by_cases same : other = id
    · simp [same]
    · rw [Function.update_of_ne same, old.get]
      simp [same]
  · exact List.perm_middle.trans ((perm_cons_filter old.nodup_stored member).symm.append_right _)

theorem Stored.endLease (old : Stored world stored) (counted : Counted world) {id : EntityId}
    (steps : world.step (.endLease id) = some next) : ∃ lease, Stored next (lease :: stored) := by
  rcases Option.bind_eq_some_iff.mp steps with ⟨lease, found, same⟩
  rcases Option.some.inj same with rfl
  have member := List.mem_of_find?_eq_some found
  have there := old.counted lease (List.mem_append_right _ member)
  have absent : lease.1 ∉ stored.map Prod.fst := by
    have both := old.nodup
    rw [List.map_append] at both
    intro inStored
    exact (List.nodup_append.mp both).2.2 _ inStored _ (List.mem_map_of_mem member) rfl
  refine ⟨lease, old.of_moved (old.get_insert counted there absent) ?_ rfl rfl rfl rfl⟩
  exact List.perm_middle.symm.trans ((perm_cons_eraseP found).symm.append_left stored)

/-- The entities that `take_dropped` returns. -/
def droppedEntities (world : World S) : List (EntityId × E) :=
  world.droppedEntityIds.filterMap fun id =>
    (S.get world.map.entities id).map fun entity => (id, entity)

theorem Stored.droppedEntities_perm (old : Stored world stored) (counted : Counted world) :
    world.droppedEntities.Perm
      (stored.filter fun entry => entry.1 ∈ world.droppedEntityIds) := by
  have nodup : world.droppedEntities.Nodup := by
    apply List.Nodup.filterMap ?_ counted.nodup
    intro first second entry inFirst inSecond
    rcases Option.map_eq_some_iff.mp inFirst with ⟨_, _, rfl⟩
    rcases Option.map_eq_some_iff.mp inSecond with ⟨_, _, same⟩
    exact (Prod.mk.inj same).1.symm
  rw [List.perm_ext_iff_of_nodup nodup (old.nodup_stored.of_map.filter _)]
  rintro ⟨id, entity⟩
  rw [droppedEntities, List.mem_filterMap, List.mem_filter, decide_eq_true_iff]
  constructor
  · rintro ⟨other, dropped, found⟩
    rcases Option.map_eq_some_iff.mp found with ⟨_, here, same⟩
    rcases Prod.mk.inj same with ⟨rfl, rfl⟩
    exact ⟨(old.get _ _).mp here, dropped⟩
  · rintro ⟨member, dropped⟩
    refine ⟨id, dropped, ?_⟩
    rw [(old.get id entity).mpr member]
    rfl

theorem takeDropped_step (counted : Counted world)
    (steps : world.step .takeDropped = some next) :
    world.dropping = none ∧ next.returned = world.returned ++ world.droppedEntities ∧
      next.inserted = world.inserted ∧ next.leases = world.leases ∧ next.slots = world.slots ∧
      Taken world.map next.map world.droppedEntityIds := by
  rcases Option.ite_none_right_eq_some.mp steps with ⟨⟨free, _⟩, steps⟩
  rcases counted.takeDropped_eq with ⟨after, taken, removed, _⟩
  rcases Option.bind_eq_some_iff.mp steps with ⟨_, here, same⟩
  rcases Option.some.inj (taken.symm.trans here) with rfl
  rcases Option.some.inj same with rfl
  exact ⟨free, rfl, rfl, rfl, rfl, removed⟩

theorem Stored.takeDropped (old : Stored world stored) (counted : Counted world)
    (kept : world.LeaseKept .takeDropped) (steps : world.step .takeDropped = some next) :
    Stored next (stored.filter fun entry => entry.1 ∉ world.droppedEntityIds) := by
  rcases takeDropped_step counted steps with
    ⟨_, returned, inserted, leases, slots, counts, entities⟩
  have keptCounts : ∀ {id}, id ∉ world.droppedEntityIds → world.counts id ≠ none →
      next.counts id ≠ none := by
    intro id absent there
    change next.map.refCounts.counts id ≠ none
    rw [counts, if_neg absent]
    exact there
  have leased : ∀ lease ∈ world.leases, lease.1 ∉ world.droppedEntityIds := by
    intro lease member dropped
    exact counted.counts_ne_zero (kept lease member) ((counted.dropped lease.1).mp dropped).1
  have sublist : (stored.filter fun entry => entry.1 ∉ world.droppedEntityIds).Sublist stored :=
    List.filter_sublist
  constructor
  · intro id entity
    rw [entities, List.mem_filter, decide_eq_true_iff]
    by_cases dropped : id ∈ world.droppedEntityIds
    · simp [dropped]
    · rw [if_neg dropped, old.get]
      exact (and_iff_left dropped).symm
  · rw [leases]
    exact old.nodup.sublist ((sublist.append_right _).map _)
  · rw [leases]
    intro entry member
    have absent : entry.1 ∉ world.droppedEntityIds := by
      rcases List.mem_append.mp member with inMap | inLeases
      · exact of_decide_eq_true (List.mem_filter.mp inMap).2
      · exact leased entry inLeases
    exact keptCounts absent (old.counted entry ((sublist.append_right _).subset member))
  · rw [leases, slots]
    exact fun entry member => old.slots entry ((sublist.append_right _).subset member)
  · rw [slots]
    exact old.slotsNodup
  · rw [inserted, returned, leases]
    refine old.conserved.trans ?_
    rw [List.append_assoc, ← List.append_assoc world.droppedEntities]
    refine List.Perm.append_left _ (List.Perm.append_right _ ?_)
    have halves := List.filter_append_perm
      (fun entry => decide (entry.1 ∈ world.droppedEntityIds)) stored
    simp only [← decide_not] at halves
    exact halves.symm.trans ((old.droppedEntities_perm counted).symm.append_right _)

theorem setCount_ne_none {refCounts : EntityRefCounts} {id other : EntityId} {count : Nat}
    (there : refCounts.counts other ≠ none) : (refCounts.setCount id count).counts other ≠ none := by
  change Function.update refCounts.counts id (some count) other ≠ none
  by_cases same : other = id
  · rw [same, Function.update_self]
    exact Option.some_ne_none count
  · rwa [Function.update_of_ne same]

theorem Stored.step (old : Stored world stored) (counted : Counted world) {event : EntityEvent E}
    (lawful : world.Lawful event) (steps : world.step event = some next) :
    ∃ moved, Stored next moved := by
  cases event with
  | reserve id => exact ⟨stored, old.reserve counted lawful.1 steps⟩
  | insert id entity => exact ⟨_, old.insert counted steps⟩
  | lease id => exact ⟨_, old.lease steps⟩
  | endLease id =>
      rcases old.endLease counted steps with ⟨lease, ended⟩
      exact ⟨_, ended⟩
  | takeDropped => exact ⟨_, old.takeDropped counted lawful.2 steps⟩
  | clone id =>
      rcases Option.ite_none_right_eq_some.mp steps with ⟨_, steps⟩
      rcases Option.bind_eq_some_iff.mp steps with ⟨refCounts, cloned, same⟩
      rcases Option.some.inj same with rfl
      rcases Option.bind_eq_some_iff.mp cloned with ⟨prevCount, _, result⟩
      split at result
      · cases result
      · rcases Option.some.inj result with rfl
        exact ⟨stored, old.of_same rfl rfl rfl rfl (fun _ => setCount_ne_none) (.refl _)⟩
  | drop id slot =>
      rcases Option.ite_none_right_eq_some.mp steps with ⟨_, steps⟩
      rcases Option.bind_eq_some_iff.mp steps with ⟨_, released, same⟩
      rcases Option.some.inj same with rfl
      rcases Option.bind_eq_some_iff.mp released with ⟨prevCount, _, result⟩
      split at result
      · cases result
      · rcases Option.some.inj result with rfl
        refine ⟨stored, old.of_same rfl rfl rfl rfl (fun _ => setCount_ne_none) ?_⟩
        cases slot with
        | false => exact .refl _
        | true => exact List.erase_sublist
  | pushDropped =>
      rcases Option.ite_none_right_eq_some.mp steps with ⟨_, steps⟩
      rcases Option.bind_eq_some_iff.mp steps with ⟨id, _, same⟩
      rcases Option.some.inj same with rfl
      exact ⟨stored, old.of_same rfl rfl rfl rfl (fun _ there => there) (.refl _)⟩
  | downgrade id =>
      rcases Option.ite_none_right_eq_some.mp steps with ⟨_, same⟩
      rcases Option.some.inj same with rfl
      exact ⟨stored, old.of_same rfl rfl rfl rfl (fun _ there => there) (.refl _)⟩
  | upgradeMissing id =>
      rcases Option.ite_none_right_eq_some.mp steps with ⟨_, same⟩
      rcases Option.some.inj same with rfl
      exact ⟨stored, old⟩
  | upgradeLoad id =>
      rcases Option.ite_none_right_eq_some.mp steps with ⟨_, steps⟩
      rcases Option.bind_eq_some_iff.mp steps with ⟨loaded, _, same⟩
      rcases Option.some.inj same with rfl
      exact ⟨stored, old.of_same rfl rfl rfl rfl (fun _ there => there) (.refl _)⟩
  | upgradeZero id =>
      rcases Option.ite_none_right_eq_some.mp steps with ⟨_, same⟩
      rcases Option.some.inj same with rfl
      exact ⟨stored, old.of_same rfl rfl rfl rfl (fun _ there => there) (.refl _)⟩
  | upgradeExchange id loaded =>
      rcases Option.ite_none_right_eq_some.mp steps with ⟨_, same⟩
      rcases Option.some.inj same with rfl
      exact ⟨stored, old.of_same rfl rfl rfl rfl (fun _ => setCount_ne_none) (.refl _)⟩
  | upgradeRetry id loaded =>
      rcases Option.ite_none_right_eq_some.mp steps with ⟨_, steps⟩
      rcases Option.bind_eq_some_iff.mp steps with ⟨actual, _, same⟩
      rcases Option.some.inj same with rfl
      exact ⟨stored, old.of_same rfl rfl rfl rfl (fun _ there => there) (.refl _)⟩

end Steps

/-! ## Runs -/

/-- What can be said at any time of the entities that are in the map or leased. -/
structure Accounts (world : World S) (held : List (EntityId × E)) : Prop where
  mem_held : ∀ id entity, (id, entity) ∈ held ↔
    S.get world.map.entities id = some entity ∨ (id, entity) ∈ world.leases
  count : ∀ id, (world.map.refCounts.counts id).getD 0 = world.live id
  dropped : ∀ id, id ∈ world.map.refCounts.droppedEntityIds ↔
    world.map.refCounts.counts id = some 0 ∧ world.dropping ≠ some id
  upgrade : ∀ {event next id upgraded}, world.step event = some next →
    event.upgrade = some (id, upgraded) → (upgraded = true ↔ 0 < world.live id)
  /-- No handle is found to be released too often. -/
  unreleased : ∀ id, 0 < world.live id →
    world.map.refCounts.clone id ≠ none ∧ world.map.refCounts.release id ≠ none
  unwraps : world.map.takeDropped ≠ none
  returns : ∀ {next}, world.LeaseKept .takeDropped → world.step .takeDropped = some next →
    ∃ taken, next.returned = world.returned ++ taken ∧
      taken.Perm (held.filter fun entry => world.live entry.1 = 0)
  conserved : world.inserted.Perm (world.returned ++ held)
  distinct : (held.map Prod.fst).Nodup
  slotKept : ∀ {id}, world.SlotVacant (.reserve id) → ∀ entry ∈ held, entry.1.index ≠ id.index

theorem Counted.upgrade {world next : World S} (counted : Counted world) {event : EntityEvent E}
    {id : EntityId} {upgraded : Bool} (steps : world.step event = some next)
    (upgrades : event.upgrade = some (id, upgraded)) : upgraded = true ↔ 0 < world.live id := by
  have noHandle : (world.counts id).getD 0 = 0 → (false = true ↔ 0 < world.live id) := by
    intro zero
    rw [counted.count] at zero
    simp [zero]
  cases event with
  | upgradeMissing other =>
      rcases Option.some.inj upgrades with ⟨⟩
      rcases Option.ite_none_right_eq_some.mp steps with ⟨⟨_, missing⟩, _⟩
      apply noHandle
      rw [counts, missing]
      rfl
  | upgradeZero other =>
      rcases Option.some.inj upgrades with ⟨⟩
      rcases Option.ite_none_right_eq_some.mp steps with ⟨loaded, _⟩
      apply noHandle
      rw [(counted.upgrading _ loaded).2 rfl]
      rfl
  | upgradeExchange other loaded =>
      rcases Option.some.inj upgrades with ⟨⟩
      rcases Option.ite_none_right_eq_some.mp steps with ⟨⟨_, notZero, here⟩, _⟩
      rw [counted.live_of_counts here]
      exact iff_of_true rfl (Nat.pos_of_ne_zero notZero)
  | _ => cases upgrades

theorem Counted.unreleased {world : World S} (counted : Counted world) {id : EntityId}
    (live : 0 < world.live id) :
    world.map.refCounts.clone id ≠ none ∧ world.map.refCounts.release id ≠ none := by
  have here : world.map.refCounts.counts id = some (world.live id) := counted.counts_of_live live
  simp [EntityRefCounts.clone, EntityRefCounts.release, here, live.ne']

theorem Stored.returns {world next : World S} {stored : List (EntityId × E)}
    (old : Stored world stored) (counted : Counted world)
    (kept : world.LeaseKept .takeDropped) (steps : world.step .takeDropped = some next) :
    ∃ taken, next.returned = world.returned ++ taken ∧
      taken.Perm ((stored ++ world.leases).filter fun entry => world.live entry.1 = 0) := by
  rcases takeDropped_step counted steps with ⟨free, returned, _⟩
  refine ⟨world.droppedEntities, returned, ?_⟩
  have leased : (world.leases.filter fun entry => world.live entry.1 = 0) = [] := by
    rw [List.filter_eq_nil_iff]
    intro lease member
    simpa using (kept lease member).ne'
  have inMap : ∀ entry ∈ stored, entry.1 ∈ world.droppedEntityIds ↔ world.live entry.1 = 0 := by
    intro entry member
    have there := old.counted entry (List.mem_append_left _ member)
    rw [counted.dropped, free, ← counted.count entry.1]
    cases here : world.counts entry.1 with
    | none => exact absurd here there
    | some count => simp
  have same : (stored.filter fun entry => entry.1 ∈ world.droppedEntityIds) =
      stored.filter fun entry => world.live entry.1 = 0 :=
    List.filter_congr fun entry member => decide_eq_decide.mpr (inMap entry member)
  rw [List.filter_append, leased, List.append_nil, ← same]
  exact old.droppedEntities_perm counted

theorem Stored.accounts {world : World S} {stored : List (EntityId × E)}
    (old : Stored world stored) (counted : Counted world) :
    Accounts world (stored ++ world.leases) where
  mem_held id entity := by
    rw [List.mem_append, old.get]
  count := counted.count
  dropped := counted.dropped
  upgrade := counted.upgrade
  unreleased _ := counted.unreleased
  unwraps := by
    rcases counted.takeDropped_eq with ⟨after, taken, _⟩
    rw [taken]
    exact Option.some_ne_none _
  returns := old.returns counted
  conserved := old.conserved
  distinct := old.nodup
  slotKept vacant entry member := vacant entry.1 (old.counted entry member)

theorem run_counted {world : World S} {events : List (EntityEvent E)}
    (run : Run step SlotVacant (new S) events world) : Counted world :=
  run.invariant (fun _ world => Counted world) counted_new
    fun counted vacant steps => counted.step vacant steps

theorem Counted.counts_eq_none {world : World S} (counted : Counted world) {id : EntityId}
    (noHandle : world.live id = 0) (notDropped : id ∉ world.droppedEntityIds)
    (notDropping : world.dropping ≠ some id) : world.counts id = none := by
  by_contra there
  rcases Option.ne_none_iff_exists'.mp there with ⟨count, here⟩
  have zero : count = 0 := (counted.live_of_counts here).symm.trans noHandle
  exact notDropped ((counted.dropped id).mpr ⟨zero ▸ here, notDropping⟩)

/-- In every run that keeps a handle of each leased entity when the dropped ones are taken,
counts are numbers of handles, upgrades succeed while there are any, and every entity
inserted is held until the first taking without handles returns it, and not again. -/
theorem run_accounts {world : World S} {events : List (EntityEvent E)}
    (run : Run step Lawful (new S) events world) : ∃ held, Accounts world held := by
  have invariant : Counted world ∧ ∃ stored, Stored world stored := by
    apply run.invariant (fun _ world => Counted world ∧ ∃ stored, Stored world stored)
    · exact ⟨counted_new, [], stored_new⟩
    · rintro _ world event next ⟨counted, stored, old⟩ lawful steps
      exact ⟨counted.step lawful.1 steps, old.step counted lawful steps⟩
  rcases invariant with ⟨counted, stored, old⟩
  exact ⟨_, old.accounts counted⟩

/-- The first id that a slot map gives out. -/
def firstId : EntityId :=
  ⟨1, 1⟩

theorem slotVacant_first : (new S).SlotVacant (.reserve firstId) :=
  fun _ there => absurd rfl there

/-- An entity is inserted, dropped and taken. -/
theorem run_accounts_taken :
    ∃ world : World (.ofSlots Nat), world.returned = [(firstId, 7)] ∧
      ∃ held, Accounts world held := by
  have run : Run step Lawful (new (.ofSlots Nat))
      [.reserve firstId, .insert firstId 7, .drop firstId false, .pushDropped, .takeDropped] _ :=
    ((((Run.nil.snoc ⟨slotVacant_first, trivial⟩ rfl).snoc ⟨trivial, trivial⟩ rfl).snoc
      ⟨trivial, trivial⟩ rfl).snoc ⟨trivial, trivial⟩ rfl).snoc
      ⟨trivial, fun _ member => absurd member List.not_mem_nil⟩ rfl
  exact ⟨_, rfl, run_accounts run⟩

/-- Between the two steps of a last drop a count is zero and the id is not in the list; and
an entity that loses its last handle while it is leased, and is taken then, is not returned
though its slot is free. -/
theorem exists_run_unaccounted :
    (∃ (events : List (EntityEvent Nat)) (world : World (.ofSlots Nat)) (id : EntityId),
      Run step SlotVacant (new (.ofSlots Nat)) events world ∧
      world.map.refCounts.counts id = some 0 ∧ id ∉ world.map.refCounts.droppedEntityIds) ∧
    ∃ (events : List (EntityEvent Nat)) (world : World (.ofSlots Nat)) (id other : EntityId)
      (entity : Nat), Run step SlotVacant (new (.ofSlots Nat)) (events ++ [.takeDropped]) world ∧
      (id, entity) ∈ world.inserted ∧ world.live id = 0 ∧ world.dropping = none ∧
      world.returned = [] ∧ other.index = id.index ∧ world.SlotVacant (.reserve other) := by
  constructor
  · have run : Run step SlotVacant (new (.ofSlots Nat))
        [.reserve firstId, .drop firstId true] _ :=
      (Run.nil.snoc slotVacant_first rfl).snoc (by exact trivial) rfl
    exact ⟨_, _, firstId, run, rfl, List.not_mem_nil⟩
  · have run : Run step SlotVacant (new (.ofSlots Nat))
        ([.reserve firstId, .insert firstId 7, .lease firstId, .drop firstId false,
          .pushDropped] ++ [.takeDropped]) _ :=
      (((((Run.nil.snoc slotVacant_first rfl).snoc (by exact trivial) rfl).snoc
        (by exact trivial) rfl).snoc (by exact trivial) rfl).snoc (by exact trivial) rfl).snoc
        (by exact trivial) rfl
    refine ⟨_, _, firstId, ⟨1, 3⟩, 7, run, List.mem_singleton.mpr rfl, rfl, rfl, rfl, rfl, ?_⟩
    exact fun other there =>
      absurd ((run_counted run).counts_eq_none rfl List.not_mem_nil (Option.some_ne_none _ ∘ Eq.symm))
        there

end World

end Gpui.Entities
