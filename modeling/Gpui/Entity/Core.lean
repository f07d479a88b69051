import Gpui.Library.SlotMap
import Gpui.Library.Transition

/-!
# The entity map

Entities live in a map under ids that a slot map of reference counts hands out.
Strong handles count; the last one to go leaves the id in a list, from which
`take_dropped` releases it.

Handles may be cloned, dropped and upgraded by any thread.  The table of counts is
behind a lock: what holds it for writing is one step, what only reads is a step for
each access to a count.  An entity stands for its box; a lease may change what is in it.

Panics yield `none`.  Counts are natural numbers, as no more handles are alive than
fit in memory.
-/

namespace Gpui.Entities

open Gpui.Library

abbrev EntityId := SlotKey

variable {E : Type}

structure EntityRefCounts where
  counts : EntityId → Option Nat
  droppedEntityIds : List EntityId

structure EntityMap (S : SecondaryMap E) where
  entities : S.Map
  accessedEntities : EntityId → Bool
  refCounts : EntityRefCounts

namespace EntityRefCounts

def setCount (self : EntityRefCounts) (id : EntityId) (count : Nat) : EntityRefCounts :=
  { self with counts := Function.update self.counts id (some count) }

/-- What `AnyEntity::clone` does to the count. -/
def clone (self : EntityRefCounts) (id : EntityId) : Option EntityRefCounts := do
  let prevCount ← self.counts id
  if prevCount = 0 then none else some (self.setCount id (prevCount + 1))

/-- What `AnyEntity::drop` does to the count, and whether it was the last reference. -/
def release (self : EntityRefCounts) (id : EntityId) : Option (EntityRefCounts × Bool) := do
  let prevCount ← self.counts id
  if prevCount = 0 then none else some (self.setCount id (prevCount - 1), prevCount = 1)

end EntityRefCounts

namespace EntityMap

variable {S : SecondaryMap E}

def new (S : SecondaryMap E) : EntityMap S where
  entities := S.new
  accessedEntities _ := false
  refCounts := ⟨fun _ => none, []⟩

def access (self : EntityMap S) (id : EntityId) : EntityMap S :=
  { self with accessedEntities := Function.update self.accessedEntities id true }

/-- `reserve`, with the key that the slot map inserts at. -/
def reserve (self : EntityMap S) (id : EntityId) : EntityMap S :=
  { self with refCounts := self.refCounts.setCount id 1 }

def insert (self : EntityMap S) (id : EntityId) (entity : E) : EntityMap S :=
  { self.access id with entities := S.insert id entity self.entities }

def lease (self : EntityMap S) (id : EntityId) : Option (E × EntityMap S) := do
  let entity ← S.get self.entities id
  return (entity, { self.access id with entities := S.remove id self.entities })

def endLease (self : EntityMap S) (lease : EntityId × E) : EntityMap S :=
  { self with entities := S.insert lease.1 lease.2 self.entities }

/-- The closure of `take_dropped`, which also gives the entity if there is one. -/
def takeOne (self : EntityMap S) (id : EntityId) : Option (Option (EntityId × E) × EntityMap S) := do
  let count ← self.refCounts.counts id
  if count ≠ 0 then none
  else
    some ((S.get self.entities id).map fun entity => (id, entity),
      { entities := S.remove id self.entities
        accessedEntities := Function.update self.accessedEntities id false
        refCounts :=
          { self.refCounts with counts := Function.update self.refCounts.counts id none } })

def takeEach (self : EntityMap S) : List EntityId → Option (List (EntityId × E) × EntityMap S)
  | [] => some ([], self)
  | id :: ids => do
      let (first, map) ← self.takeOne id
      let (rest, map) ← takeEach map ids
      return (first.toList ++ rest, map)

def takeDropped (self : EntityMap S) : Option (List (EntityId × E) × EntityMap S) :=
  takeEach { self with refCounts := { self.refCounts with droppedEntityIds := [] } }
    self.refCounts.droppedEntityIds

end EntityMap

/-! ## Interleavings -/

/-- The map, the reserved slots, the other strong handles, the weak handles, the leases,
the drop that has still to add its id to the list, the upgrades under way with the count
each has loaded, and the entities inserted and returned so far. -/
structure World (S : SecondaryMap E) where
  map : EntityMap S
  slots : List EntityId
  handles : List EntityId
  weaks : List EntityId
  leases : List (EntityId × E)
  dropping : Option EntityId
  upgrading : List (EntityId × Nat)
  inserted : List (EntityId × E)
  returned : List (EntityId × E)

inductive EntityEvent (E : Type) where
  | reserve (id : EntityId)
  | insert (id : EntityId) (entity : E)
  | lease (id : EntityId)
  | endLease (id : EntityId)
  | clone (id : EntityId)
  /-- A slot, or another handle, is dropped; this ends the drop unless it was the last. -/
  | drop (id : EntityId) (slot : Bool)
  /-- The last drop has got hold of the lock for writing. -/
  | pushDropped
  | downgrade (id : EntityId)
  /-- An upgrade finds no count. -/
  | upgradeMissing (id : EntityId)
  | upgradeLoad (id : EntityId)
  /-- An upgrade that has loaded zero returns. -/
  | upgradeZero (id : EntityId)
  | upgradeExchange (id : EntityId) (loaded : Nat)
  /-- The exchange fails, which it may without reason, and loads the count again. -/
  | upgradeRetry (id : EntityId) (loaded : Nat)
  | takeDropped
deriving DecidableEq

/-- The entity whose upgrade returns with an event, and whether with a handle. -/
def EntityEvent.upgrade : EntityEvent E → Option (EntityId × Bool)
  | .upgradeMissing id | .upgradeZero id => some (id, false)
  | .upgradeExchange id _ => some (id, true)
  | _ => none

namespace World

variable {S : SecondaryMap E}

def new (S : SecondaryMap E) : World S where
  map := .new S
  slots := []
  handles := []
  weaks := []
  leases := []
  dropping := none
  upgrading := []
  inserted := []
  returned := []

/-- The number of strong handles of an entity. -/
def live (self : World S) (id : EntityId) : Nat :=
  self.slots.count id + self.handles.count id

def setCounts (self : World S) (refCounts : EntityRefCounts) : World S :=
  { self with map := { self.map with refCounts } }

/-- One step.  Nothing writes under the lock while a drop or an upgrade holds it, and no
two drops hold it. -/
def step (self : World S) : EntityEvent E → Option (World S)
  | .reserve id =>
      if self.dropping = none ∧ self.upgrading = [] then
        some { self with map := self.map.reserve id, slots := id :: self.slots }
      else none
  | .insert id entity =>
      if id ∈ self.slots then
        some { self with
          map := self.map.insert id entity
          slots := self.slots.erase id
          handles := id :: self.handles
          inserted := (id, entity) :: self.inserted }
      else none
  | .lease id =>
      if id ∈ self.slots ++ self.handles then do
        let (entity, map) ← self.map.lease id
        return { self with map, leases := (id, entity) :: self.leases }
      else none
  | .endLease id => do
      let lease ← self.leases.find? fun lease => lease.1 = id
      return { self with
        map := self.map.endLease lease
        leases := self.leases.eraseP fun lease => lease.1 = id }
  | .clone id =>
      if id ∈ self.slots ++ self.handles then do
        let refCounts ← self.map.refCounts.clone id
        return { self.setCounts refCounts with handles := id :: self.handles }
      else none
  | .drop id slot =>
      if self.dropping = none ∧ id ∈ (if slot then self.slots else self.handles) then do
        let (refCounts, last) ← self.map.refCounts.release id
        return { self.setCounts refCounts with
          slots := if slot then self.slots.erase id else self.slots
          handles := if slot then self.handles else self.handles.erase id
          dropping := if last then some id else none }
      else none
  | .pushDropped =>
      if self.upgrading = [] then do
        let id ← self.dropping
        let refCounts := self.map.refCounts
        return { self.setCounts { refCounts with
            droppedEntityIds := refCounts.droppedEntityIds ++ [id] } with
          dropping := none }
      else none
  | .downgrade id =>
      if id ∈ self.slots ++ self.handles then some { self with weaks := id :: self.weaks }
      else none
  | .upgradeMissing id =>
      if id ∈ self.weaks ∧ self.map.refCounts.counts id = none then some self else none
  | .upgradeLoad id =>
      if id ∈ self.weaks then do
        let loaded ← self.map.refCounts.counts id
        return { self with upgrading := (id, loaded) :: self.upgrading }
      else none
  | .upgradeZero id =>
      if (id, 0) ∈ self.upgrading then
        some { self with upgrading := self.upgrading.erase (id, 0) }
      else none
  | .upgradeExchange id loaded =>
      if (id, loaded) ∈ self.upgrading ∧ loaded ≠ 0 ∧
          self.map.refCounts.counts id = some loaded then
        some { self.setCounts (self.map.refCounts.setCount id (loaded + 1)) with
          handles := id :: self.handles
          upgrading := self.upgrading.erase (id, loaded) }
      else none
  | .upgradeRetry id loaded =>
      if (id, loaded) ∈ self.upgrading ∧ loaded ≠ 0 then do
        let actual ← self.map.refCounts.counts id
        return { self with upgrading := (id, actual) :: self.upgrading.erase (id, loaded) }
      else none
  | .takeDropped =>
      if self.dropping = none ∧ self.upgrading = [] then do
        let (taken, map) ← self.map.takeDropped
        return { self with map, returned := self.returned ++ taken }
      else none

/-- The slot map hands out a key whose slot no other key in use has. -/
def SlotVacant (self : World S) : EntityEvent E → Prop
  | .reserve id => ∀ other, self.map.refCounts.counts other ≠ none → other.index ≠ id.index
  | _ => True

/-- Whoever leases an entity keeps a handle of it, or the map, until the lease ends. -/
def LeaseKept (self : World S) : EntityEvent E → Prop
  | .takeDropped => ∀ lease ∈ self.leases, 0 < self.live lease.1
  | _ => True

/-- A step that the slot map and the callers of the entity map allow. -/
def Lawful (self : World S) (event : EntityEvent E) : Prop :=
  self.SlotVacant event ∧ self.LeaseKept event

end World

end Gpui.Entities
