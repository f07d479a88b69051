import Gpui.RasterCache.Residency

/-!
# The accounts of the raster caches

The bytes that a cache is charged are those of the allocations its tiles refer to, each
counted once, and stay under the hard limit.  The tiles that it is charged are its tiles, as
long as no batch that gets a texture names a tile twice that it has to make.
-/

namespace Gpui

open Library

namespace RasterRenderer

def stats (self : RasterRenderer) (cacheId : UInt64) : RasterCacheStats :=
  ((self.namespaces cacheId).getD .new).stats

def ofCache (cacheId : UInt64) (key : CachedRasterTextureKey) : Bool :=
  key.cacheId = cacheId

/-- The allocations that tiles of the cache refer to. -/
def allocationsOf (self : RasterRenderer) (cacheId : UInt64) : Finset CachedRasterAllocation :=
  self.textures.image (ofCache cacheId) CachedRasterTexture.allocation

def allocatedBytes (self : RasterRenderer) (cacheId : UInt64) : Nat :=
  ∑ allocation ∈ self.allocationsOf cacheId, allocation.bytes

def tileCount (self : RasterRenderer) (cacheId : UInt64) : Nat :=
  self.textures.count (ofCache cacheId)

variable (config : UInt64 → RasterCacheConfig)

/-- The statistics of the caches say what is there. -/
structure Accounted (renderer : RasterRenderer) : Prop where
  bytes : ∀ {cacheId namespace_}, renderer.namespaces cacheId = some namespace_ →
    namespace_.stats.residentBytes = renderer.allocatedBytes cacheId
  tiles : ∀ {cacheId namespace_}, renderer.namespaces cacheId = some namespace_ →
    namespace_.stats.residentTiles = renderer.tileCount cacheId
  limit : ∀ {cacheId namespace_}, renderer.namespaces cacheId = some namespace_ →
    namespace_.stats.residentBytes ≤ (config cacheId).hardLimitBytes
  /-- A cache that has no statistics has no tiles. -/
  released : ∀ {cacheId}, renderer.namespaces cacheId = none → renderer.tileCount cacheId = 0

/-- Every tile is in a namespace and in a texture that was made, which no tile of another
cache is in, and the bytes are right. -/
structure Sound (renderer : RasterRenderer) : Prop where
  named : ∀ {key texture}, renderer.textures.get key = some texture →
    (renderer.namespaces key.cacheId).isSome = true
  made : ∀ {key texture}, renderer.textures.get key = some texture →
    texture.allocation.texture < renderer.created
  apart : ∀ {key other texture otherTexture}, renderer.textures.get key = some texture →
    renderer.textures.get other = some otherTexture →
      texture.allocation = otherTexture.allocation → key.cacheId = other.cacheId
  bytes : ∀ cacheId, (renderer.stats cacheId).residentBytes = renderer.allocatedBytes cacheId
  limit : ∀ cacheId, (renderer.stats cacheId).residentBytes ≤ (config cacheId).hardLimitBytes

/-- The tiles are counted right. -/
def Counted (renderer : RasterRenderer) : Prop :=
  ∀ cacheId, (renderer.stats cacheId).residentTiles = renderer.tileCount cacheId

variable {config}

theorem sound_new : new.Sound config where
  named found := by cases found
  made found := by cases found
  apart found := by cases found
  bytes _ := rfl
  limit _ := Nat.zero_le _

theorem counted_new : new.Counted :=
  fun _ => rfl

variable {self after : RasterRenderer}

theorem mem_allocationsOf {cacheId : UInt64} {allocation : CachedRasterAllocation} :
    allocation ∈ self.allocationsOf cacheId ↔
      ∃ key texture, key.cacheId = cacheId ∧ self.textures.get key = some texture ∧
        texture.allocation = allocation := by
  rw [allocationsOf, FiniteMap.mem_image]
  simp only [ofCache, decide_eq_true_eq]

theorem Sound.accounted (sound : self.Sound config) (counted : self.Counted) :
    self.Accounted config where
  bytes {cacheId namespace_} found := by
    have bytes := sound.bytes cacheId
    rw [stats, found] at bytes
    exact bytes
  tiles {cacheId namespace_} found := by
    have tiles := counted cacheId
    rw [stats, found] at tiles
    exact tiles
  limit {cacheId namespace_} found := by
    have limit := sound.limit cacheId
    rw [stats, found] at limit
    exact limit
  released {cacheId} missing := by
    have tiles := counted cacheId
    rw [stats, missing] at tiles
    exact tiles.symm

/-! ## Steps that leave the tiles where they are -/

theorem allocationsOf_congr
    (same : ∀ key, (after.textures.get key).map CachedRasterTexture.allocation =
      (self.textures.get key).map CachedRasterTexture.allocation) (cacheId : UInt64) :
    after.allocationsOf cacheId = self.allocationsOf cacheId :=
  FiniteMap.image_congr _ fun key _ => same key

theorem Sound.congr (sound : self.Sound config)
    (same : ∀ key, (after.textures.get key).map CachedRasterTexture.allocation =
      (self.textures.get key).map CachedRasterTexture.allocation)
    (named : ∀ cacheId, (self.namespaces cacheId).isSome = true →
      (after.namespaces cacheId).isSome = true)
    (bytes : ∀ cacheId, (after.stats cacheId).residentBytes = (self.stats cacheId).residentBytes)
    (created : after.created = self.created) : after.Sound config := by
  have before : ∀ {key texture}, after.textures.get key = some texture →
      ∃ old, self.textures.get key = some old ∧ old.allocation = texture.allocation := by
    intro key texture found
    have there := same key
    rw [found] at there
    exact Option.map_eq_some_iff.mp there.symm
  constructor
  · intro key texture found
    rcases before found with ⟨old, foundOld, _⟩
    exact named _ (sound.named foundOld)
  · intro key texture found
    rcases before found with ⟨old, foundOld, sameAllocation⟩
    rw [created, ← sameAllocation]
    exact sound.made foundOld
  · intro key other texture otherTexture found foundOther shared
    rcases before found with ⟨old, foundOld, sameOld⟩
    rcases before foundOther with ⟨oldOther, foundOldOther, sameOther⟩
    exact sound.apart foundOld foundOldOther (sameOld.trans (shared.trans sameOther.symm))
  · intro cacheId
    rw [bytes, sound.bytes, allocatedBytes, allocatedBytes, allocationsOf_congr same]
  · intro cacheId
    rw [bytes]
    exact sound.limit cacheId

theorem Counted.congr (counted : self.Counted)
    (same : ∀ key, (after.textures.get key).map CachedRasterTexture.allocation =
      (self.textures.get key).map CachedRasterTexture.allocation)
    (tiles : ∀ cacheId, (after.stats cacheId).residentTiles = (self.stats cacheId).residentTiles) :
    after.Counted := by
  intro cacheId
  rw [tiles, counted]
  apply FiniteMap.count_congr
  intro key _
  rw [← Option.isSome_map (f := CachedRasterTexture.allocation), ← same key, Option.isSome_map]

theorem map_allocation_touch {key : CachedRasterTextureKey} {texture : CachedRasterTexture}
    (found : self.textures.get key = some texture) (other : CachedRasterTextureKey) :
    ((self.touch key texture).textures.get other).map CachedRasterTexture.allocation =
      (self.textures.get other).map CachedRasterTexture.allocation := by
  rw [touch, FiniteMap.get_insert]
  split
  next same =>
    rw [same, found]
    rfl
  next => rfl

theorem stats_updateStats (self : RasterRenderer) (cacheId : UInt64)
    (update : RasterCacheStats → RasterCacheStats) (other : UInt64) :
    (self.updateStats cacheId update).stats other =
      if other = cacheId then update (self.stats cacheId) else self.stats other := by
  rw [stats, updateStats]
  by_cases same : other = cacheId
  · rw [same, if_pos rfl]
    simp only [PartialMap.insert_self, Option.getD_some, stats]
  · rw [if_neg same]
    simp only [PartialMap.insert_of_ne _ _ same, stats]

theorem isSome_updateStats (self : RasterRenderer) (cacheId : UInt64)
    (update : RasterCacheStats → RasterCacheStats) {other : UInt64}
    (named : (self.namespaces other).isSome = true) :
    ((self.updateStats cacheId update).namespaces other).isSome = true := by
  rw [updateStats]
  by_cases same : other = cacheId
  · rw [same]
    simp only [PartialMap.insert_self, Option.isSome_some]
  · simp only [PartialMap.insert_of_ne _ _ same]
    exact named

theorem Sound.touch (sound : self.Sound config) {key : CachedRasterTextureKey}
    {texture : CachedRasterTexture} (found : self.textures.get key = some texture) :
    (self.touch key texture).Sound config :=
  sound.congr (map_allocation_touch found) (fun _ named => named) (fun _ => rfl) rfl

theorem Counted.touch (counted : self.Counted) {key : CachedRasterTextureKey}
    {texture : CachedRasterTexture} (found : self.textures.get key = some texture) :
    (self.touch key texture).Counted :=
  counted.congr (map_allocation_touch found) fun _ => rfl

/-- Statistics that say nothing about the tiles are updated. -/
theorem Sound.updateStats (sound : self.Sound config) (cacheId : UInt64)
    {update : RasterCacheStats → RasterCacheStats}
    (bytes : ∀ stats, (update stats).residentBytes = stats.residentBytes) :
    (self.updateStats cacheId update).Sound config := by
  apply sound.congr
  · exact fun _ => rfl
  · exact fun _ => isSome_updateStats self cacheId update
  · intro other
    rw [stats_updateStats]
    split
    next same => rw [bytes, same]
    next => rfl
  · rfl

theorem Counted.updateStats (counted : self.Counted) (cacheId : UInt64)
    {update : RasterCacheStats → RasterCacheStats}
    (tiles : ∀ stats, (update stats).residentTiles = stats.residentTiles) :
    (self.updateStats cacheId update).Counted := by
  apply counted.congr
  · exact fun _ => rfl
  · intro other
    rw [stats_updateStats]
    split
    next same => rw [tiles, same]
    next => rfl

theorem stats_dropOwner (self : RasterRenderer) (cacheId other : UInt64) :
    (self.dropOwner cacheId).stats other = self.stats other := by
  rw [stats, dropOwner]
  by_cases same : other = cacheId
  · subst same
    simp only [PartialMap.modify_self, stats]
    cases self.namespaces other <;> rfl
  · simp only [PartialMap.modify_of_ne _ _ same, stats]

theorem Sound.dropOwner (sound : self.Sound config) (cacheId : UInt64) :
    (self.dropOwner cacheId).Sound config := by
  apply sound.congr
  · exact fun _ => rfl
  · intro other named
    rw [RasterRenderer.dropOwner, PartialMap.isSome_modify]
    exact named
  · intro other
    rw [stats_dropOwner]
  · rfl

theorem Counted.dropOwner (counted : self.Counted) (cacheId : UInt64) :
    (self.dropOwner cacheId).Counted := by
  apply counted.congr
  · exact fun _ => rfl
  · intro other
    rw [stats_dropOwner]

/-! ## Caches that are released -/

theorem allocationsOf_retain {gone : UInt64 → Bool}
    (textures : after.textures = self.textures.retain fun key => !gone key.cacheId)
    (cacheId : UInt64) :
    after.allocationsOf cacheId = if gone cacheId then ∅ else self.allocationsOf cacheId := by
  rw [allocationsOf, textures]
  split
  next isGone =>
    apply Finset.eq_empty_of_forall_notMem
    intro allocation member
    rcases FiniteMap.mem_image.1 member with ⟨key, texture, chosen, found, _⟩
    rcases FiniteMap.get_retain_eq_some_iff.1 found with ⟨kept, _⟩
    rw [of_decide_eq_true chosen, isGone] at kept
    cases kept
  next stays =>
    apply FiniteMap.image_congr
    intro key chosen
    rw [FiniteMap.get_retain, of_decide_eq_true chosen, if_pos]
    rw [Bool.not_eq_true] at stays
    rw [stays]
    rfl

theorem tileCount_retain {gone : UInt64 → Bool}
    (textures : after.textures = self.textures.retain fun key => !gone key.cacheId)
    (cacheId : UInt64) :
    after.tileCount cacheId = if gone cacheId then 0 else self.tileCount cacheId := by
  rw [tileCount, textures]
  split
  next isGone =>
    apply Finset.card_eq_zero.mpr
    apply Finset.eq_empty_of_forall_notMem
    intro key member
    rcases Finset.mem_filter.mp member with ⟨kept, chosen⟩
    have keeps := (Finset.mem_filter.mp kept).2
    change (!gone key.cacheId) = true at keeps
    rw [of_decide_eq_true chosen, isGone] at keeps
    cases keeps
  next stays =>
    apply FiniteMap.count_congr
    intro key chosen
    rw [FiniteMap.get_retain, of_decide_eq_true chosen, if_pos]
    rw [Bool.not_eq_true] at stays
    rw [stays]
    rfl

theorem stats_retain {gone : UInt64 → Bool}
    (namespaces : ∀ cacheId, after.namespaces cacheId =
      if gone cacheId then none else self.namespaces cacheId) (cacheId : UInt64) :
    after.stats cacheId =
      if gone cacheId then RasterNamespace.new.stats else self.stats cacheId := by
  rw [stats, namespaces]
  split
  next => rfl
  next => rfl

theorem Sound.retain (sound : self.Sound config) {gone : UInt64 → Bool}
    (textures : after.textures = self.textures.retain fun key => !gone key.cacheId)
    (namespaces : ∀ cacheId, after.namespaces cacheId =
      if gone cacheId then none else self.namespaces cacheId)
    (created : after.created = self.created) : after.Sound config := by
  have before : ∀ {key texture}, after.textures.get key = some texture →
      gone key.cacheId = false ∧ self.textures.get key = some texture := by
    intro key texture found
    rw [textures] at found
    rcases FiniteMap.get_retain_eq_some_iff.1 found with ⟨kept, there⟩
    rw [Bool.not_eq_true'] at kept
    exact ⟨kept, there⟩
  constructor
  · intro key texture found
    rcases before found with ⟨stays, there⟩
    rw [namespaces, stays]
    exact sound.named there
  · intro key texture found
    rw [created]
    exact sound.made (before found).2
  · intro key other texture otherTexture found foundOther shared
    exact sound.apart (before found).2 (before foundOther).2 shared
  · intro cacheId
    rw [stats_retain namespaces, allocatedBytes, allocationsOf_retain textures]
    split
    next => rfl
    next => exact sound.bytes cacheId
  · intro cacheId
    rw [stats_retain namespaces]
    split
    next => exact Nat.zero_le _
    next => exact sound.limit cacheId

theorem Counted.retain (counted : self.Counted) {gone : UInt64 → Bool}
    (textures : after.textures = self.textures.retain fun key => !gone key.cacheId)
    (namespaces : ∀ cacheId, after.namespaces cacheId =
      if gone cacheId then none else self.namespaces cacheId) : after.Counted := by
  intro cacheId
  rw [stats_retain namespaces, tileCount_retain textures]
  split
  next => rfl
  next => exact counted cacheId

theorem namespaces_release (self : RasterRenderer) (cacheId other : UInt64) :
    (self.releaseRasterCache cacheId).namespaces other =
      if decide (other = cacheId) = true then none else self.namespaces other := by
  rw [releaseRasterCache]
  by_cases same : other = cacheId
  · rw [same, decide_eq_true rfl, if_pos rfl]
    simp only [PartialMap.remove_self]
  · rw [decide_eq_false same]
    simp only [PartialMap.remove_of_ne _ same, Bool.false_eq_true, if_false]

theorem textures_release (self : RasterRenderer) (cacheId : UInt64) :
    (self.releaseRasterCache cacheId).textures =
      self.textures.retain fun key => !decide (key.cacheId = cacheId) := by
  rw [releaseRasterCache]
  simp only [ne_eq, decide_not]

theorem Sound.release (sound : self.Sound config) (cacheId : UInt64) :
    (self.releaseRasterCache cacheId).Sound config :=
  sound.retain (textures_release self cacheId) (namespaces_release self cacheId) rfl

theorem Counted.release (counted : self.Counted) (cacheId : UInt64) :
    (self.releaseRasterCache cacheId).Counted :=
  counted.retain (textures_release self cacheId) (namespaces_release self cacheId)

theorem Sound.prune (sound : self.Sound config) :
    self.pruneReleasedRasterCaches.Sound config :=
  sound.retain rfl (fun _ => rfl) rfl

theorem Counted.prune (counted : self.Counted) : self.pruneReleasedRasterCaches.Counted :=
  counted.retain rfl fun _ => rfl

theorem Sound.lookup (sound : self.Sound config) (key : CachedRasterTextureKey) :
    (self.rasterTileLookup key).2.Sound config := by
  rw [rasterTileLookup]
  cases found : self.pruneReleasedRasterCaches.textures.get key with
  | some tile =>
      dsimp only
      apply (sound.prune.touch found).updateStats
      exact fun _ => rfl
  | none =>
      dsimp only
      apply sound.prune.updateStats
      exact fun _ => rfl

theorem Counted.lookup (counted : self.Counted) (key : CachedRasterTextureKey) :
    (self.rasterTileLookup key).2.Counted := by
  rw [rasterTileLookup]
  cases found : self.pruneReleasedRasterCaches.textures.get key with
  | some tile =>
      dsimp only
      apply (counted.prune.touch found).updateStats
      exact fun _ => rfl
  | none =>
      dsimp only
      apply counted.prune.updateStats
      exact fun _ => rfl

/-! ## Tiles that are dropped -/

theorem isSome_remove (key : CachedRasterTextureKey) (evicted : Bool) {cacheId : UInt64}
    (named : (self.namespaces cacheId).isSome = true) :
    ((self.removeRasterTexture key evicted).namespaces cacheId).isSome = true := by
  rw [removeRasterTexture]
  cases self.textures.get key with
  | none => exact named
  | some texture =>
      rw [PartialMap.isSome_modify]
      exact named

/-- A tile that is dropped is discharged, and its texture with the last of its tiles. -/
theorem stats_remove {key : CachedRasterTextureKey} {texture : CachedRasterTexture}
    (found : self.textures.get key = some texture)
    (named : (self.namespaces key.cacheId).isSome = true) (evicted : Bool) (cacheId : UInt64) :
    (self.removeRasterTexture key evicted).stats cacheId =
      if cacheId = key.cacheId then
        { self.stats cacheId with
          residentBytes :=
            if texture.allocation ∉ (self.removeRasterTexture key evicted).allocations then
              (self.stats cacheId).residentBytes - texture.allocation.bytes
            else (self.stats cacheId).residentBytes
          residentTiles := (self.stats cacheId).residentTiles - 1
          evictedTiles :=
            if evicted then (self.stats cacheId).evictedTiles + 1
            else (self.stats cacheId).evictedTiles }
      else self.stats cacheId := by
  rcases Option.isSome_iff_exists.mp named with ⟨namespace_, there⟩
  rw [allocations, textures_remove found, stats, removeRasterTexture, found]
  by_cases same : cacheId = key.cacheId
  · subst same
    simp only [if_true, stats, PartialMap.modify_self, there, Option.map_some,
      Option.getD_some, allocations]
    rfl
  · simp only [if_neg same, stats, PartialMap.modify_of_ne _ _ same]

/-- No tile of another cache has the allocation. -/
theorem Sound.mem_allocations_remove (sound : self.Sound config) {key : CachedRasterTextureKey}
    {texture : CachedRasterTexture} (found : self.textures.get key = some texture)
    (evicted : Bool) :
    texture.allocation ∈ (self.removeRasterTexture key evicted).allocations ↔
      texture.allocation ∈ (self.textures.erase key).image (ofCache key.cacheId)
        CachedRasterTexture.allocation := by
  rw [allocations, textures_remove found, FiniteMap.mem_image, FiniteMap.mem_image]
  constructor
  · rintro ⟨other, otherTexture, _, there, same⟩
    have before := there
    rw [FiniteMap.get_erase, Option.ite_none_left_eq_some] at before
    refine ⟨other, otherTexture, ?_, there, same⟩
    exact decide_eq_true (sound.apart before.2 found same)
  · rintro ⟨other, otherTexture, _, there, same⟩
    exact ⟨other, otherTexture, rfl, there, same⟩

theorem Sound.remove (sound : self.Sound config) (key : CachedRasterTextureKey)
    (evicted : Bool) : (self.removeRasterTexture key evicted).Sound config := by
  cases found : self.textures.get key with
  | none =>
      rw [removeRasterTexture_none found]
      exact sound
  | some texture =>
      have named := sound.named found
      have before : ∀ {other otherTexture},
          (self.removeRasterTexture key evicted).textures.get other = some otherTexture →
            self.textures.get other = some otherTexture := by
        intro other otherTexture there
        rw [get_remove, Option.ite_none_left_eq_some] at there
        exact there.2
      have bytes : ∀ cacheId, ((self.removeRasterTexture key evicted).stats cacheId).residentBytes =
          (self.removeRasterTexture key evicted).allocatedBytes cacheId := by
        intro cacheId
        rw [stats_remove found named, allocatedBytes, allocationsOf, textures_remove found]
        by_cases same : cacheId = key.cacheId
        · subst same
          simp only [if_pos, sound.mem_allocations_remove found]
          by_cases again : texture.allocation ∈ (self.textures.erase key).image
              (ofCache key.cacheId) CachedRasterTexture.allocation
          · rw [if_neg (not_not_intro again), FiniteMap.image_erase_of_mem found again]
            exact sound.bytes key.cacheId
          · rw [if_pos again, FiniteMap.image_erase_of_not_mem found again, sound.bytes,
              allocatedBytes, allocationsOf, ← Finset.sum_erase_add _ _ (FiniteMap.mem_image.2
                ⟨key, texture, decide_eq_true rfl, found, rfl⟩)]
            exact Nat.add_sub_cancel ..
        · rw [if_neg same, FiniteMap.image_erase_of_not fun chosen =>
            same (of_decide_eq_true chosen).symm]
          exact sound.bytes cacheId
      constructor
      · exact fun there => isSome_remove key evicted (sound.named (before there))
      · intro other otherTexture there
        rw [created_remove]
        exact sound.made (before there)
      · exact fun there thereOther shared => sound.apart (before there) (before thereOther) shared
      · exact bytes
      · intro cacheId
        apply le_trans _ (sound.limit cacheId)
        rw [stats_remove found named]
        split
        next =>
          split
          next => exact Nat.sub_le ..
          next => exact le_rfl
        next => exact le_rfl

theorem Counted.remove (counted : self.Counted) (sound : self.Sound config)
    (key : CachedRasterTextureKey) (evicted : Bool) :
    (self.removeRasterTexture key evicted).Counted := by
  cases found : self.textures.get key with
  | none =>
      rw [removeRasterTexture_none found]
      exact counted
  | some texture =>
      intro cacheId
      rw [stats_remove found (sound.named found), tileCount, textures_remove found]
      by_cases same : cacheId = key.cacheId
      · subst same
        rw [if_pos rfl, counted, tileCount,
          ← FiniteMap.count_erase (ofCache key.cacheId) found (decide_eq_true rfl)]
        exact Nat.add_sub_cancel ..
      · rw [if_neg same, FiniteMap.count_erase_of_not fun chosen =>
          same (of_decide_eq_true chosen).symm]
        exact counted cacheId

theorem Sound.evict (sound : self.Sound config) {cacheId : UInt64}
    {isProtected : Finset CachedRasterTextureKey} {exceeds : RasterRenderer → Bool}
    {evictions : List CachedRasterTextureKey} {fits : Bool}
    (evicts : evict cacheId isProtected exceeds evictions self = some (fits, after)) :
    after.Sound config :=
  (evict_invariant (Sound config) sound (fun sound _ => sound.remove _ true) evicts).1

theorem Counted.evict (counted : self.Counted) (sound : self.Sound config) {cacheId : UInt64}
    {isProtected : Finset CachedRasterTextureKey} {exceeds : RasterRenderer → Bool}
    {evictions : List CachedRasterTextureKey} {fits : Bool}
    (evicts : RasterRenderer.evict cacheId isProtected exceeds evictions self =
      some (fits, after)) : after.Counted := by
  have both : (after.Sound config ∧ after.Counted) ∧ _ :=
    evict_invariant (fun renderer => renderer.Sound config ∧ renderer.Counted) ⟨sound, counted⟩
      (fun both _ => ⟨both.1.remove _ true, both.2.remove both.1 _ true⟩) evicts
  exact both.1.2

/-! ## Tiles that are made -/

variable {cacheId : UInt64} {bytes : Nat} {sourceSize : Size Int} {gutter : Int}
  {entries : List (CachedRasterTextureKey × Point Int)}

theorem residentBytes_le_of_fits
    (fits : exceedsHardLimit config cacheId bytes self = false) :
    (self.stats cacheId).residentBytes + bytes ≤ (config cacheId).hardLimitBytes := by
  rw [exceedsHardLimit, decide_eq_false_iff_not, Nat.not_lt] at fits
  rw [stats]
  cases there : self.namespaces cacheId with
  | none =>
      rw [there] at fits
      change 0 + bytes ≤ _
      rw [Nat.zero_add]
      exact fits
  | some namespace_ =>
      rw [there] at fits
      exact fits

theorem stats_insertTextures (other : UInt64) :
    (self.insertTextures cacheId bytes sourceSize gutter entries).stats other =
      if other = cacheId then
        { self.stats other with
          residentBytes := (self.stats other).residentBytes + bytes
          residentTiles := (self.stats other).residentTiles + entries.length }
      else self.stats other := by
  rw [insertTextures]
  simp only
  rw [stats_updateStats]
  split
  next same =>
    rw [same]
    rfl
  next => rfl

theorem allocationsOf_insertTextures (named : ∀ entry ∈ entries, entry.1.cacheId = cacheId)
    (absent : ∀ entry ∈ entries, self.textures.get entry.1 = none) (some_ : entries ≠ [])
    (other : UInt64) :
    (self.insertTextures cacheId bytes sourceSize gutter entries).allocationsOf other =
      if other = cacheId then insert ⟨self.created, bytes⟩ (self.allocationsOf other)
      else self.allocationsOf other := by
  split
  next same =>
    subst same
    rw [allocationsOf, insertTextures, updateStats]
    simp only
    apply FiniteMap.image_insertAll
    · intro entry member
      rcases List.mem_map.mp member with ⟨entry, inEntries, rfl⟩
      exact absent entry inEntries
    · intro entry member
      rcases List.mem_map.mp member with ⟨entry, inEntries, rfl⟩
      exact decide_eq_true (named entry inEntries)
    · intro entry member
      rcases List.mem_map.mp member with ⟨entry, inEntries, rfl⟩
      rfl
    · exact fun none => some_ (List.map_eq_nil_iff.mp none)
  next different =>
    apply FiniteMap.image_congr
    intro key chosen
    apply map_allocation_of_placeOf
    apply placeOf_insertTextures_of_not_mem
    intro member
    rcases List.mem_map.mp member with ⟨entry, inEntries, rfl⟩
    exact different ((of_decide_eq_true chosen).symm.trans (named entry inEntries))

theorem Sound.insertTextures (sound : self.Sound config)
    (fits : exceedsHardLimit config cacheId bytes self = false)
    (named : ∀ entry ∈ entries, entry.1.cacheId = cacheId)
    (absent : ∀ entry ∈ entries, self.textures.get entry.1 = none) (some_ : entries ≠ []) :
    (self.insertTextures cacheId bytes sourceSize gutter entries).Sound config := by
  have limited := residentBytes_le_of_fits fits
  have isNamed : ∀ {other}, other = cacheId ∨ (self.namespaces other).isSome = true →
      ((self.insertTextures cacheId bytes sourceSize gutter entries).namespaces
        other).isSome = true := by
    intro other either
    rw [RasterRenderer.insertTextures]
    rcases either with rfl | there
    · rw [RasterRenderer.updateStats]
      simp only [PartialMap.insert_self, Option.isSome_some]
    · exact isSome_updateStats _ _ _ there
  -- A tile is an old one, or in the new texture.
  have tiles : ∀ {key texture},
      (self.insertTextures cacheId bytes sourceSize gutter entries).textures.get key =
        some texture →
      (∃ old, self.textures.get key = some old ∧ old.allocation = texture.allocation) ∨
        key.cacheId = cacheId ∧ texture.allocation = ⟨self.created, bytes⟩ := by
    intro key texture found
    by_cases new : key ∈ entries.map Prod.fst
    · rcases get_insertTextures_of_mem self cacheId bytes sourceSize gutter new with
        ⟨origin, member, found'⟩
      rw [found'] at found
      rcases Option.some.inj found with rfl
      exact Or.inr ⟨named _ member, rfl⟩
    · have stays := placeOf_insertTextures_of_not_mem self cacheId bytes sourceSize gutter new
      rcases exists_of_placeOf stays found with ⟨old, there, same⟩
      exact Or.inl ⟨old, there, (CachedRasterTexture.place_eq_iff.1 same).1⟩
  have fresh : ∀ {key old}, self.textures.get key = some old →
      old.allocation ≠ ⟨self.created, bytes⟩ := by
    intro key old found same
    have made := sound.made found
    rw [same] at made
    exact lt_irrefl _ made
  constructor
  · intro key texture found
    apply isNamed
    rcases tiles found with ⟨old, there, _⟩ | ⟨same, _⟩
    · exact Or.inr (sound.named there)
    · exact Or.inl same
  · intro key texture found
    rw [created_insertTextures]
    rcases tiles found with ⟨old, there, same⟩ | ⟨_, same⟩
    · rw [← same]
      exact Nat.lt_succ_of_lt (sound.made there)
    · rw [same]
      exact Nat.lt_succ_self _
  · intro key other texture otherTexture found foundOther shared
    rcases tiles found with ⟨old, there, same⟩ | ⟨inCache, same⟩
    · rcases tiles foundOther with ⟨oldOther, thereOther, sameOther⟩ | ⟨_, sameOther⟩
      · exact sound.apart there thereOther (same.trans (shared.trans sameOther.symm))
      · exact absurd (same.trans (shared.trans sameOther)) (fresh there)
    · rcases tiles foundOther with ⟨oldOther, thereOther, sameOther⟩ | ⟨inCacheOther, _⟩
      · exact absurd (sameOther.trans (shared.symm.trans same)) (fresh thereOther)
      · exact inCache.trans inCacheOther.symm
  · intro other
    rw [stats_insertTextures, allocatedBytes, allocationsOf_insertTextures named absent some_]
    split
    next same =>
      rw [Finset.sum_insert, Nat.add_comm]
      · exact congrArg (_ + ·) (sound.bytes other)
      · intro member
        rcases mem_allocationsOf.1 member with ⟨key, old, _, found, same⟩
        exact fresh found same
    next => exact sound.bytes other
  · intro other
    rw [stats_insertTextures]
    split
    next same =>
      rw [same]
      exact limited
    next => exact sound.limit other

theorem Counted.insertTextures (counted : self.Counted)
    (named : ∀ entry ∈ entries, entry.1.cacheId = cacheId)
    (absent : ∀ entry ∈ entries, self.textures.get entry.1 = none)
    (distinct : (entries.map Prod.fst).Nodup) :
    (self.insertTextures cacheId bytes sourceSize gutter entries).Counted := by
  intro other
  rw [stats_insertTextures, tileCount, RasterRenderer.insertTextures, RasterRenderer.updateStats]
  simp only
  split
  next same =>
    subst same
    rw [FiniteMap.count_insertAll]
    · rw [List.length_map]
      exact congrArg (· + _) (counted other)
    · intro entry member
      rcases List.mem_map.mp member with ⟨entry, inEntries, rfl⟩
      exact absent entry inEntries
    · intro entry member
      rcases List.mem_map.mp member with ⟨entry, inEntries, rfl⟩
      exact decide_eq_true (named entry inEntries)
    · rw [List.map_map]
      exact distinct
  next different =>
    rw [FiniteMap.count_insertAll_of_not]
    · exact counted other
    · intro entry member chosen
      rcases List.mem_map.mp member with ⟨entry, inEntries, rfl⟩
      exact different ((of_decide_eq_true chosen).symm.trans (named entry inEntries))

/-! ## Preparing -/

theorem Sound.congr_places (sound : self.Sound config)
    (same : ∀ key, after.placeOf key = self.placeOf key)
    (namespaces : after.namespaces = self.namespaces) (created : after.created = self.created) :
    after.Sound config := by
  apply sound.congr
  · exact fun key => map_allocation_of_placeOf (same key)
  · intro cacheId named
    rw [namespaces]
    exact named
  · intro cacheId
    rw [stats, stats, namespaces]
  · exact created

theorem Sound.prepareTargets (sound : self.Sound config) (batch : RasterTargets)
    (size : Size Int) (targets : List RasterBatchTarget) :
    (prepareTargets batch size targets self).2.Sound config := by
  induction targets generalizing self with
  | nil => exact sound
  | cons target targets ih =>
      rw [RasterRenderer.prepareTargets]
      split
      next =>
        cases ready : self.isReady batch target with
        | some existing => exact ih (sound.touch (get_of_isReady ready))
        | none => exact ih (sound.remove _ false)
      next => exact sound

theorem Counted.prepareTargets (counted : self.Counted) (sound : self.Sound config)
    (batch : RasterTargets) (size : Size Int) (targets : List RasterBatchTarget) :
    (RasterRenderer.prepareTargets batch size targets self).2.Counted := by
  induction targets generalizing self with
  | nil => exact counted
  | cons target targets ih =>
      rw [RasterRenderer.prepareTargets]
      split
      next =>
        cases ready : self.isReady batch target with
        | some existing =>
            exact ih (counted.touch (get_of_isReady ready)) (sound.touch (get_of_isReady ready))
        | none => exact ih (counted.remove sound _ false) (sound.remove _ false)
      next => exact counted

variable {size : Size Int} {isProtected : Finset CachedRasterTextureKey}
  {evictions : List CachedRasterTextureKey}

theorem get_evict_of_none {cacheId : UInt64} {exceeds : RasterRenderer → Bool} {fits : Bool}
    (evicts : evict cacheId isProtected exceeds evictions self = some (fits, after))
    {key : CachedRasterTextureKey} (missing : self.textures.get key = none) :
    after.textures.get key = none := by
  rw [← placeOf_eq_none_iff, placeOf_evict evicts]
  split
  next => rfl
  next => exact placeOf_eq_none_iff.2 missing

theorem fits_of_evict {cacheId : UInt64} {exceeds : RasterRenderer → Bool}
    (evicts : evict cacheId isProtected exceeds evictions self = some (true, after)) :
    exceeds after = false :=
  (evict_invariant (fun _ => True) trivial (fun _ _ => trivial) evicts).2

theorem hasSize_touch {key : CachedRasterTextureKey} {texture : CachedRasterTexture}
    (found : self.hasSize key size = some texture) : self.textures.get key = some texture :=
  (Option.filter_eq_some_iff.mp found).1

theorem Prepares.sound {key : CachedRasterTextureKey} {texture : Option Nat}
    (prepares : Prepares config self key size gutter isProtected evictions texture after)
    (sound : self.Sound config) : after.Sound config := by
  cases prepares with
  | refused => exact sound
  | existing _ found => exact sound.touch (hasSize_touch found)
  | full _ _ evicts => exact (sound.remove key false).evict evicts
  | allocated _ _ evicts =>
      apply ((sound.remove key false).evict evicts).insertTextures (fits_of_evict evicts)
      · intro entry member
        rw [List.mem_singleton.mp member]
      · intro entry member
        rw [List.mem_singleton.mp member]
        apply get_evict_of_none evicts
        rw [get_remove, if_pos rfl]
      · exact List.cons_ne_nil _ _

theorem Prepares.counted {key : CachedRasterTextureKey} {texture : Option Nat}
    (prepares : Prepares config self key size gutter isProtected evictions texture after)
    (sound : self.Sound config) (counted : self.Counted) : after.Counted := by
  cases prepares with
  | refused => exact counted
  | existing _ found => exact counted.touch (hasSize_touch found)
  | full _ _ evicts => exact (counted.remove sound key false).evict (sound.remove key false) evicts
  | allocated _ _ evicts =>
      apply ((counted.remove sound key false).evict (sound.remove key false)
        evicts).insertTextures
      · intro entry member
        rw [List.mem_singleton.mp member]
      · intro entry member
        rw [List.mem_singleton.mp member]
        apply get_evict_of_none evicts
        rw [get_remove, if_pos rfl]
      · exact List.nodup_singleton _

variable {batch : RasterTargets} {middle : RasterRenderer}

theorem named_of_prepareTargets {targets : List RasterBatchTarget}
    (prepares : RasterRenderer.prepareTargets batch size targets self = (some entries, middle)) :
    ∀ entry ∈ entries, entry.1.cacheId = batch.cacheId := by
  intro entry member
  rw [(prepareTargets_some prepares).1] at member
  rcases List.mem_map.mp member with ⟨target, _, rfl⟩
  rfl

theorem PreparesBatch.sound {prepared : Option PreparedRasterBatchTexture}
    (prepares : PreparesBatch config self batch size isProtected evictions prepared after)
    (sound : self.Sound config) : after.Sound config := by
  have targetsSound := sound.prepareTargets batch size batch.targets
  cases prepares with
  | refused => exact sound
  | outOfPlace _ prepares =>
      rw [prepares] at targetsSound
      exact targetsSound
  | alreadyReady _ prepares =>
      rw [prepares] at targetsSound
      exact targetsSound
  | full _ _ prepares evicts =>
      rw [prepares] at targetsSound
      exact targetsSound.evict evicts
  | allocated _ some_ prepares evicts =>
      rw [prepares] at targetsSound
      apply (targetsSound.evict evicts).insertTextures (fits_of_evict evicts)
        (named_of_prepareTargets prepares) _ some_
      intro entry member
      exact get_evict_of_none evicts ((prepareTargets_some prepares).2.1 entry member)

/-- The allocations of the cache that stay when all tiles are evicted that may be, but for
tiles that are made again. -/
def keptAllocations (self : RasterRenderer) (batch : RasterTargets)
    (isProtected : Finset CachedRasterTextureKey) : Finset CachedRasterAllocation :=
  self.textures.image
    (fun key => ofCache batch.cacheId key && key ∈ isProtected &&
      !batch.targets.any fun target =>
        batch.textureKey target = key && self.enters batch target)
    CachedRasterTexture.allocation

/-- A texture can be made for the batch. -/
def Fits (config : UInt64 → RasterCacheConfig) (self : RasterRenderer) (batch : RasterTargets)
    (size : Size Int) (isProtected : Finset CachedRasterTextureKey) : Prop :=
  refuses config batch.cacheId size = false ∧
    (∀ target ∈ batch.targets, batch.inPlace size target = true) ∧
    ∑ allocation ∈ self.keptAllocations batch isProtected, allocation.bytes + textureBytes size ≤
      (config batch.cacheId).hardLimitBytes

/-- What is protected and not made again is still there. -/
theorem keptAllocations_subset {exceeds : RasterRenderer → Bool} {fits : Bool}
    (prepares : RasterRenderer.prepareTargets batch size batch.targets self =
      (some entries, middle))
    (evicts : evict batch.cacheId isProtected exceeds evictions middle = some (fits, after)) :
    self.keptAllocations batch isProtected ⊆ after.allocationsOf batch.cacheId := by
  intro allocation member
  rcases FiniteMap.mem_image.1 member with ⟨key, texture, chosen, found, rfl⟩
  simp only [Bool.and_eq_true, Bool.not_eq_true', decide_eq_true_eq] at chosen
  rcases chosen with ⟨⟨inCache, kept⟩, notMade⟩
  have place : after.placeOf key = self.placeOf key := by
    rw [placeOf_evict evicts, if_neg fun evicted => (candidate_of_mem_evictions evicts evicted).2 kept]
    rcases placeOf_prepareTargets prepares key with same | ⟨_, target, inTargets, same, makes⟩
    · exact same
    · rw [List.any_eq_false] at notMade
      apply absurd _ (notMade target ((List.takeWhile_prefix _).subset inTargets))
      rw [makes, decide_eq_true same]
      rfl
  have there := map_allocation_of_placeOf place
  rw [found, Option.map_some] at there
  rcases Option.map_eq_some_iff.mp there with ⟨stays, foundAfter, same⟩
  exact mem_allocationsOf.2 ⟨key, stays, of_decide_eq_true inCache, foundAfter, same⟩

theorem Sound.fits_of_evict (sound : middle.Sound config)
    (accepts : refuses config batch.cacheId size = false)
    (prepares : RasterRenderer.prepareTargets batch size batch.targets self =
      (some entries, middle))
    (evicts : RasterRenderer.evict batch.cacheId isProtected
      (exceedsHardLimit config batch.cacheId (textureBytes size)) evictions middle =
        some (true, after)) : self.Fits config batch size isProtected := by
  refine ⟨accepts, (prepareTargets_some prepares).2.2, ?_⟩
  have limited := residentBytes_le_of_fits (RasterRenderer.fits_of_evict evicts)
  rw [(sound.evict evicts).bytes] at limited
  apply le_trans _ limited
  apply Nat.add_le_add_right
  exact Finset.sum_le_sum_of_subset (keptAllocations_subset prepares evicts)

theorem PreparesBatch.counted {prepared : Option PreparedRasterBatchTexture}
    (prepares : PreparesBatch config self batch size isProtected evictions prepared after)
    (sound : self.Sound config) (counted : self.Counted)
    (distinct : self.Fits config batch size isProtected →
      ((batch.targets.filter (self.enters batch)).map batch.textureKey).Nodup) :
    after.Counted := by
  have targetsSound := sound.prepareTargets batch size batch.targets
  have targetsCounted := counted.prepareTargets sound batch size batch.targets
  cases prepares with
  | refused => exact counted
  | outOfPlace _ prepares =>
      rw [prepares] at targetsCounted
      exact targetsCounted
  | alreadyReady _ prepares =>
      rw [prepares] at targetsCounted
      exact targetsCounted
  | full _ _ prepares evicts =>
      rw [prepares] at targetsSound targetsCounted
      exact targetsCounted.evict targetsSound evicts
  | allocated accepts some_ prepares evicts =>
      rw [prepares] at targetsSound targetsCounted
      apply (targetsCounted.evict targetsSound evicts).insertTextures
        (named_of_prepareTargets prepares)
      · intro entry member
        exact get_evict_of_none evicts ((prepareTargets_some prepares).2.1 entry member)
      · rw [(prepareTargets_some prepares).1, List.map_map]
        exact distinct (targetsSound.fits_of_evict accepts prepares evicts)

end RasterRenderer

/-! ## Runs -/

inductive RasterCacheEvent where
  | nextFrame
  | lookup (key : CachedRasterTextureKey)
  | release (cacheId : UInt64)
  | dropOwner (cacheId : UInt64)
  | prepare (key : CachedRasterTextureKey) (size : Size Int) (gutter : Int)
      (isProtected : Finset CachedRasterTextureKey) (evictions : List CachedRasterTextureKey)
  | prepareBatch (batch : RasterTargets) (size : Size Int)
      (isProtected : Finset CachedRasterTextureKey) (evictions : List CachedRasterTextureKey)
  | evictOffscreen (cacheId : UInt64) (isProtected : Finset CachedRasterTextureKey)
      (evictions : List CachedRasterTextureKey)

namespace RasterRenderer

variable {config : UInt64 → RasterCacheConfig} {self next : RasterRenderer}

def step (config : UInt64 → RasterCacheConfig) (self : RasterRenderer) :
    RasterCacheEvent → Option RasterRenderer
  | .nextFrame => some { self with frameIndex := self.frameIndex + 1 }
  | .lookup key => some (self.rasterTileLookup key).2
  | .release cacheId => some (self.releaseRasterCache cacheId)
  | .dropOwner cacheId => some (self.dropOwner cacheId)
  | .prepare key size gutter isProtected evictions =>
      (self.prepareRasterTextureFields config key size gutter isProtected evictions).map Prod.snd
  | .prepareBatch batch size isProtected evictions =>
      (self.prepareRasterBatchTexture config batch size isProtected evictions).map Prod.snd
  | .evictOffscreen cacheId isProtected evictions =>
      self.evictOffscreen config cacheId isProtected evictions

/-- A batch that a texture can be made for does not name a tile twice that has to be made. -/
def Distinct (config : UInt64 → RasterCacheConfig) (self : RasterRenderer) :
    RasterCacheEvent → Prop
  | .prepareBatch batch size isProtected _ => self.Fits config batch size isProtected →
      ((batch.targets.filter (self.enters batch)).map batch.textureKey).Nodup
  | _ => True

theorem Sound.step (sound : self.Sound config) {event : RasterCacheEvent}
    (steps : self.step config event = some next) : next.Sound config := by
  cases event with
  | nextFrame =>
      rcases Option.some.inj steps with rfl
      apply sound.congr_places
      · exact fun _ => rfl
      · rfl
      · rfl
  | lookup key =>
      rcases Option.some.inj steps with rfl
      exact sound.lookup key
  | release cacheId =>
      rcases Option.some.inj steps with rfl
      exact sound.release cacheId
  | dropOwner cacheId =>
      rcases Option.some.inj steps with rfl
      exact sound.dropOwner cacheId
  | prepare key size gutter isProtected evictions =>
      rcases Option.map_eq_some_iff.mp steps with ⟨⟨texture, after⟩, prepares, rfl⟩
      exact (Prepares.of_eq prepares).sound sound
  | prepareBatch batch size isProtected evictions =>
      rcases Option.map_eq_some_iff.mp steps with ⟨⟨prepared, after⟩, prepares, rfl⟩
      exact (PreparesBatch.of_eq prepares).sound sound
  | evictOffscreen cacheId isProtected evictions =>
      rcases Option.map_eq_some_iff.mp steps with ⟨⟨fits, after⟩, evicts, rfl⟩
      exact sound.evict evicts

theorem Counted.step (counted : self.Counted) (sound : self.Sound config)
    {event : RasterCacheEvent} (distinct : self.Distinct config event)
    (steps : self.step config event = some next) : next.Counted := by
  cases event with
  | nextFrame =>
      rcases Option.some.inj steps with rfl
      exact counted
  | lookup key =>
      rcases Option.some.inj steps with rfl
      exact counted.lookup key
  | release cacheId =>
      rcases Option.some.inj steps with rfl
      exact counted.release cacheId
  | dropOwner cacheId =>
      rcases Option.some.inj steps with rfl
      exact counted.dropOwner cacheId
  | prepare key size gutter isProtected evictions =>
      rcases Option.map_eq_some_iff.mp steps with ⟨⟨texture, after⟩, prepares, rfl⟩
      exact (Prepares.of_eq prepares).counted sound counted
  | prepareBatch batch size isProtected evictions =>
      rcases Option.map_eq_some_iff.mp steps with ⟨⟨prepared, after⟩, prepares, rfl⟩
      exact (PreparesBatch.of_eq prepares).counted sound counted distinct
  | evictOffscreen cacheId isProtected evictions =>
      rcases Option.map_eq_some_iff.mp steps with ⟨⟨fits, after⟩, evicts, rfl⟩
      exact counted.evict sound evicts

theorem run_accounted {events : List RasterCacheEvent}
    (run : Run (step config) (Distinct config) new events self) : self.Accounted config := by
  have both : self.Sound config ∧ self.Counted := by
    apply run.invariant fun _ renderer => renderer.Sound config ∧ renderer.Counted
    · exact ⟨sound_new, counted_new⟩
    · exact fun both distinct steps =>
        ⟨both.1.step steps, both.2.step both.1 distinct steps⟩
  exact both.1.accounted both.2

/-- A cache of 512 bytes for tiles of 8 by 8. -/
def smallCache : RasterCacheConfig where
  softLimitBytes := 512
  hardLimitBytes := 512
  positive := by decide
  ordered := le_rfl

/-- The batch names its only tile as often as this. -/
def repeatedBatch (times : Nat) : RasterTargets where
  cacheId := 1
  textureSize := ⟨8, 8⟩
  gutter := 0
  targets := List.replicate times ⟨7, 1, ⟨0, 0⟩⟩

theorem run_accounted_batch :
    ∃ renderer : RasterRenderer, renderer.Accounted (fun _ => smallCache) ∧
      (renderer.stats 1).residentTiles = 1 := by
  have runs : ∃ renderer : RasterRenderer,
      Run (step fun _ => smallCache) (Distinct fun _ => smallCache) new
        [.prepareBatch (repeatedBatch 1) ⟨8, 8⟩ ∅ []] renderer ∧
      (renderer.stats 1).residentTiles = 1 := by
    refine ⟨_, .cons ?_ rfl .nil, rfl⟩
    exact fun _ => List.nodup_singleton _
  rcases runs with ⟨renderer, run, tiles⟩
  exact ⟨renderer, run_accounted run, tiles⟩

/-- A tile that a batch names twice is counted twice. -/
theorem not_run_accounted :
    ¬ ∀ (renderer : RasterRenderer) (events : List RasterCacheEvent),
      Run (step fun _ => smallCache) (fun _ _ => True) new events renderer →
        renderer.Accounted fun _ => smallCache := by
  intro accounted
  have counts : ∃ renderer namespace_,
      [RasterCacheEvent.prepareBatch (repeatedBatch 2) ⟨8, 8⟩ ∅ []].foldlM
        (step fun _ => smallCache) new = some renderer ∧
      renderer.namespaces 1 = some namespace_ ∧ namespace_.stats.residentTiles = 2 ∧
      renderer.tileCount 1 = 1 :=
    ⟨_, _, rfl, rfl, rfl, rfl⟩
  rcases counts with ⟨renderer, namespace_, runs, there, twice, once⟩
  have tiles := (accounted renderer _ (.of_foldlM runs)).tiles there
  rw [twice, once] at tiles
  cases tiles

end RasterRenderer

end Gpui
