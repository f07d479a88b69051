import Gpui.RasterCache.Populated

/-!
# Hits that are kept for the frame

A tile that was hit is drawn later in the frame, and may have been evicted by then: only the
tiles of the scene itself, of its batches, and those that its updates and batches make are
protected while it is drawn, not the tiles that its updates compose, nor those of the scenes
after it.  Tiles that were used before it go first.
-/

namespace Gpui

open Library

namespace RasterRenderer

/-- The tile is resident. -/
def Resident (self : RasterRenderer) (key : CachedRasterTextureKey) : Prop :=
  ∃ tile, self.textures.get key = some tile

/-- What tiles of the cache take that are protected or were used since, but for tiles that
are made again. -/
def retained (self : RasterRenderer) (cacheId : UInt64)
    (isProtected made : Finset CachedRasterTextureKey) (since : UInt64) :
    Finset CachedRasterAllocation :=
  self.textures.image
    (fun key => ofCache cacheId key && key ∉ made && (key ∈ isProtected ||
      (self.textures.get key).any fun tile => since ≤ tile.lastUsedFrame))
    CachedRasterTexture.allocation

/-- Evicting the tiles that were used before the hit is enough. -/
def Spares (self : RasterRenderer) (cacheId : UInt64)
    (isProtected made : Finset CachedRasterTextureKey) (limit bytes : Nat)
    (hit : CachedRasterTextureKey) : Prop :=
  hit.cacheId = cacheId → hit ∉ isProtected → ∀ tile, self.textures.get hit = some tile →
    ∑ allocation ∈ self.retained cacheId isProtected made tile.lastUsedFrame, allocation.bytes +
      bytes ≤ limit

/-- What is protected and not made again leaves room for a texture. -/
def HasRoom (config : UInt64 → RasterCacheConfig) (self : RasterRenderer)
    (key : CachedRasterTextureKey) (size : Size Int)
    (isProtected : Finset CachedRasterTextureKey) : Prop :=
  ∑ allocation ∈ self.textures.image
      (fun other => ofCache key.cacheId other && other ∈ isProtected && other ≠ key)
      CachedRasterTexture.allocation, allocation.bytes + textureBytes size ≤
    (config key.cacheId).hardLimitBytes

variable {config : UInt64 → RasterCacheConfig} {self after middle : RasterRenderer}
  {cacheId : UInt64} {isProtected made : Finset CachedRasterTextureKey} {limit bytes : Nat}
  {exceeds : RasterRenderer → Bool} {evictions : List CachedRasterTextureKey}
  {allocations : Finset CachedRasterAllocation} {key hit : CachedRasterTextureKey}

theorem Resident.of_placeOf (there : self.Resident hit)
    (same : after.placeOf hit = self.placeOf hit) : after.Resident hit := by
  rcases there with ⟨tile, found⟩
  rcases exists_of_placeOf same.symm found with ⟨other, foundOther, _⟩
  exact ⟨other, foundOther⟩

theorem exceedsHardLimit_iff (renderer : RasterRenderer) :
    exceedsHardLimit config cacheId bytes renderer = true ↔
      (config cacheId).hardLimitBytes < (renderer.stats cacheId).residentBytes + bytes := by
  rw [exceedsHardLimit, decide_eq_true_eq, stats]
  cases renderer.namespaces cacheId with
  | none =>
      rw [Option.map_none, Option.getD_none, Option.getD_none]
      exact iff_of_eq (congrArg _ (Nat.zero_add bytes).symm)
  | some namespace_ => rfl

theorem exceedsSoftLimit_iff (renderer : RasterRenderer) :
    exceedsSoftLimit config cacheId renderer = true ↔
      (config cacheId).softLimitBytes < (renderer.stats cacheId).residentBytes + 0 := by
  rw [exceedsSoftLimit, stats, Nat.add_zero]
  cases renderer.namespaces cacheId with
  | none => exact ⟨Bool.noConfusion, fun less => absurd less (Nat.not_lt_zero _)⟩
  | some namespace_ => exact decide_eq_true_iff

/-- There is not too much when all there is leaves room. -/
theorem Sound.not_exceeds (sound : self.Sound config)
    (exceeds_iff : ∀ renderer, exceeds renderer = true ↔
      limit < (RasterRenderer.stats renderer cacheId).residentBytes + bytes)
    (inside : ∀ key tile, self.textures.get key = some tile → key.cacheId = cacheId →
      tile.allocation ∈ allocations)
    (room : ∑ allocation ∈ allocations, allocation.bytes + bytes ≤ limit) :
    exceeds self = false := by
  rw [← Bool.not_eq_true, exceeds_iff, not_lt, sound.bytes]
  apply le_trans _ room
  apply Nat.add_le_add_right
  apply Finset.sum_le_sum_of_subset
  intro allocation member
  rcases mem_allocationsOf.1 member with ⟨key, tile, inCache, found, rfl⟩
  exact inside key tile found inCache

/-- A tile stays when those that go before it are enough. -/
theorem Sound.not_mem_evictions {fits : Bool} (sound : self.Sound config)
    (exceeds_iff : ∀ renderer, exceeds renderer = true ↔
      limit < (RasterRenderer.stats renderer cacheId).residentBytes + bytes)
    {tile : CachedRasterTexture} (found : self.textures.get hit = some tile)
    (inside : ∀ key other, self.textures.get key = some other → key.cacheId = cacheId →
      key ∈ isProtected ∨ tile.lastUsedFrame ≤ other.lastUsedFrame → other.allocation ∈ allocations)
    (room : ∑ allocation ∈ allocations, allocation.bytes + bytes ≤ limit)
    (evicts : RasterRenderer.evict cacheId isProtected exceeds evictions self =
      some (fits, after)) :
    hit ∉ evictions := by
  induction evictions generalizing self with
  | nil => exact List.not_mem_nil
  | cons candidate rest ih =>
      rw [RasterRenderer.evict] at evicts
      rcases Option.ite_none_right_eq_some.mp evicts with ⟨⟨tooMuch, candidates, oldest⟩, evicts⟩
      have differs : hit ≠ candidate := by
        rintro rfl
        -- The hit goes first, so that all that is left was used since.
        have enough := sound.not_exceeds exceeds_iff (fun key other foundOther inCache => by
          apply inside key other foundOther inCache
          by_cases kept : key ∈ isProtected
          · exact Or.inl kept
          · apply Or.inr
            apply oldest key _ tile found other foundOther
            rw [RasterRenderer.candidates, Finset.mem_filter]
            exact ⟨FiniteMap.mem_keys_of_get foundOther, inCache, kept⟩) room
        cases tooMuch.symm.trans enough
      apply List.not_mem_cons_of_ne_of_not_mem differs
      apply ih (sound.remove candidate true) _ _ evicts
      · rw [get_remove, if_neg differs]
        exact found
      · intro key other foundOther
        rw [get_remove, Option.ite_none_left_eq_some] at foundOther
        exact inside key other foundOther.2

theorem isProtected_of_no_candidates (noCandidates : self.candidates cacheId isProtected = ∅)
    {tile : CachedRasterTexture} (found : self.textures.get key = some tile)
    (inCache : key.cacheId = cacheId) : key ∈ isProtected := by
  by_contra unprotected
  apply Finset.notMem_empty key
  rw [← noCandidates, candidates, Finset.mem_filter]
  exact ⟨FiniteMap.mem_keys_of_get found, inCache, unprotected⟩

theorem Sound.get_evict {fits : Bool} (sound : self.Sound config)
    (exceeds_iff : ∀ renderer, exceeds renderer = true ↔
      limit < (RasterRenderer.stats renderer cacheId).residentBytes + bytes)
    {tile : CachedRasterTexture} (found : self.textures.get hit = some tile)
    (spares : hit.cacheId = cacheId → hit ∉ isProtected → ∃ allocations,
      (∀ key other, self.textures.get key = some other → key.cacheId = cacheId →
        key ∈ isProtected ∨ tile.lastUsedFrame ≤ other.lastUsedFrame →
          other.allocation ∈ allocations) ∧
      ∑ allocation ∈ allocations, allocation.bytes + bytes ≤ limit)
    (evicts : RasterRenderer.evict cacheId isProtected exceeds evictions self =
      some (fits, after)) :
    after.textures.get hit = some tile := by
  rw [RasterRenderer.get_evict evicts, if_neg, found]
  intro evicted
  rcases candidate_of_mem_evictions evicts evicted with ⟨inCache, unprotected⟩
  rcases spares inCache unprotected with ⟨allocations, inside, room⟩
  exact sound.not_mem_evictions exceeds_iff found inside room evicts evicted

/-! ## Updates -/

/-- Preparing the update leaves the tile resident. -/
def UpdateSpares (config : UInt64 → RasterCacheConfig) (self : RasterRenderer)
    (key : CachedRasterTextureKey) (size : Size Int)
    (isProtected : Finset CachedRasterTextureKey) (hit : CachedRasterTextureKey) : Prop :=
  refuses config key.cacheId size = false → self.hasSize key size = none →
    if hit = key then self.HasRoom config key size isProtected
    else self.Spares key.cacheId isProtected {key} (config key.cacheId).hardLimitBytes
      (textureBytes size) hit

variable {size : Size Int} {gutter : Int}

theorem Prepares.hasRoom {texture : Nat}
    (prepares : Prepares config self key size gutter isProtected evictions (some texture) after)
    (sound : self.Sound config) (missing : self.hasSize key size = none) :
    self.HasRoom config key size isProtected := by
  cases prepares with
  | existing _ found => cases missing.symm.trans found
  | @allocated _ middle _ _ evicts =>
      have limited := residentBytes_le_of_fits (fits_of_evict evicts)
      rw [((sound.remove key false).evict evicts).bytes] at limited
      apply le_trans _ limited
      apply Nat.add_le_add_right
      apply Finset.sum_le_sum_of_subset
      intro allocation member
      rcases FiniteMap.mem_image.1 member with ⟨other, tile, chosen, found, rfl⟩
      simp only [Bool.and_eq_true, decide_eq_true_eq] at chosen
      rcases chosen with ⟨⟨inCache, kept⟩, differs⟩
      apply mem_allocationsOf.2
      refine ⟨other, tile, of_decide_eq_true inCache, ?_, rfl⟩
      rw [RasterRenderer.get_evict evicts, if_neg, get_remove, if_neg differs, found]
      exact fun evicted => (candidate_of_mem_evictions evicts evicted).2 kept

/-- When there is room, evicting ends with a texture. -/
theorem Sound.not_full (sound : self.Sound config)
    (room : self.HasRoom config key size isProtected) :
    RasterRenderer.evict key.cacheId isProtected
      (exceedsHardLimit config key.cacheId (textureBytes size)) evictions
      (self.removeRasterTexture key false) ≠ some (false, after) := by
  intro evicts
  rcases evict_invariant (fun _ => True) trivial (fun _ _ => trivial) evicts with
    ⟨_, tooMuch, noCandidates⟩
  have enough := ((sound.remove key false).evict evicts).not_exceeds exceedsHardLimit_iff
    (fun other tile found inCache => by
      have kept := isProtected_of_no_candidates noCandidates found inCache
      rw [RasterRenderer.get_evict evicts, Option.ite_none_left_eq_some, get_remove,
        Option.ite_none_left_eq_some] at found
      apply FiniteMap.mem_image.2
      refine ⟨other, tile, ?_, found.2.2, rfl⟩
      simp only [Bool.and_eq_true, decide_eq_true_eq]
      exact ⟨⟨decide_eq_true inCache, kept⟩, found.2.1⟩) room
  cases tooMuch.symm.trans enough

theorem Prepares.resident {texture : Option Nat}
    (prepares : Prepares config self key size gutter isProtected evictions texture after)
    (sound : self.Sound config) (there : self.Resident hit)
    (spares : self.UpdateSpares config key size isProtected hit) : after.Resident hit := by
  have stays : ∀ {fits : Bool} {evicted : RasterRenderer}, hit ≠ key →
      refuses config key.cacheId size = false → self.hasSize key size = none →
      RasterRenderer.evict key.cacheId isProtected
        (exceedsHardLimit config key.cacheId (textureBytes size)) evictions
        (self.removeRasterTexture key false) = some (fits, evicted) → evicted.Resident hit := by
    intro fits evicted differs accepts missing evicts
    rcases there with ⟨tile, found⟩
    have spares := spares accepts missing
    rw [if_neg differs] at spares
    refine ⟨tile, (sound.remove key false).get_evict exceedsHardLimit_iff ?_ ?_ evicts⟩
    · rw [get_remove, if_neg differs, found]
    · intro inCache unprotected
      refine ⟨_, ?_, spares inCache unprotected tile found⟩
      intro other otherTile foundOther otherInCache either
      rw [get_remove, Option.ite_none_left_eq_some] at foundOther
      apply FiniteMap.mem_image.2
      refine ⟨other, otherTile, ?_, foundOther.2, rfl⟩
      simp only [Bool.and_eq_true, Bool.or_eq_true, decide_eq_true_eq, Finset.mem_singleton]
      refine ⟨⟨decide_eq_true otherInCache, foundOther.1⟩, ?_⟩
      rw [foundOther.2]
      rcases either with kept | used
      · exact Or.inl kept
      · exact Or.inr (decide_eq_true used)
  cases prepares with
  | refused => exact there
  | existing _ found => exact there.of_placeOf (placeOf_touch (hasSize_touch found) hit)
  | full accepts missing evicts =>
      by_cases isKey : hit = key
      · have room := spares accepts missing
        rw [if_pos isKey] at room
        exact absurd evicts (sound.not_full room)
      · exact stays isKey accepts missing evicts
  | @allocated _ middle accepts missing evicts =>
      have single : ∀ {other}, other ∈ [((key, ⟨0, 0⟩) :
          CachedRasterTextureKey × Point Int)].map Prod.fst ↔ other = key :=
        List.mem_singleton
      by_cases isKey : hit = key
      · rcases get_insertTextures_of_mem middle key.cacheId (textureBytes size) size gutter
          (single.2 isKey) with ⟨_, _, new⟩
        exact ⟨_, new⟩
      · apply (stays isKey accepts missing evicts).of_placeOf
        exact placeOf_insertTextures_of_not_mem middle key.cacheId (textureBytes size) size
          gutter (mt single.1 isKey)

/-! ## Batches -/

/-- The tiles that are dropped when the targets are prepared. -/
def replaced (self : RasterRenderer) (batch : RasterTargets) (size : Size Int) :
    Finset CachedRasterTextureKey :=
  (((batch.targets.takeWhile (batch.inPlace size)).filter (self.enters batch)).map
    batch.textureKey).toFinset

/-- Preparing the batch leaves the tile resident. -/
def BatchSpares (config : UInt64 → RasterCacheConfig) (self : RasterRenderer)
    (batch : RasterTargets) (size : Size Int) (isProtected : Finset CachedRasterTextureKey)
    (hit : CachedRasterTextureKey) : Prop :=
  refuses config batch.cacheId size = false →
    if hit ∈ self.replaced batch size then self.Fits config batch size isProtected
    else (∀ target ∈ batch.targets, batch.inPlace size target = true) →
      self.replaced batch size ≠ ∅ →
        self.Spares batch.cacheId isProtected (self.replaced batch size)
          (config batch.cacheId).hardLimitBytes (textureBytes size) hit

variable {batch : RasterTargets} {entries : List (CachedRasterTextureKey × Point Int)}

theorem mem_replaced : hit ∈ self.replaced batch size ↔
    ∃ target ∈ batch.targets.takeWhile (batch.inPlace size),
      batch.textureKey target = hit ∧ self.enters batch target = true := by
  rw [replaced, List.mem_toFinset, List.mem_map]
  simp only [List.mem_filter]
  constructor
  · rintro ⟨target, ⟨member, makes⟩, same⟩
    exact ⟨target, member, same, makes⟩
  · rintro ⟨target, member, same, makes⟩
    exact ⟨target, ⟨member, makes⟩, same⟩

/-- The tiles that are dropped are those that are entered. -/
theorem mem_entries_iff
    (prepares : RasterRenderer.prepareTargets batch size batch.targets self =
      (some entries, middle)) :
    hit ∈ entries.map Prod.fst ↔ hit ∈ self.replaced batch size := by
  rcases prepareTargets_some prepares with ⟨same, _, placed⟩
  have whole : batch.targets.takeWhile (batch.inPlace size) = batch.targets :=
    List.takeWhile_eq_self_iff.mpr placed
  rw [replaced, whole, same, List.map_map, List.mem_toFinset]
  rfl

theorem Resident.prepareTargets {entries : Option (List (CachedRasterTextureKey × Point Int))}
    (there : self.Resident hit) (stays : hit ∉ self.replaced batch size)
    (prepares : RasterRenderer.prepareTargets batch size batch.targets self =
      (entries, middle)) : middle.Resident hit := by
  apply there.of_placeOf
  rcases placeOf_prepareTargets prepares hit with same | ⟨_, replaces⟩
  · exact same
  · exact absurd (mem_replaced.2 replaces) stays

/-- When there is room, evicting ends with a texture. -/
theorem Sound.not_full_batch (sound : middle.Sound config)
    (prepares : RasterRenderer.prepareTargets batch size batch.targets self =
      (some entries, middle))
    (room : self.Fits config batch size isProtected) :
    RasterRenderer.evict batch.cacheId isProtected
      (exceedsHardLimit config batch.cacheId (textureBytes size)) evictions middle ≠
        some (false, after) := by
  intro evicts
  rcases evict_invariant (fun _ => True) trivial (fun _ _ => trivial) evicts with
    ⟨_, tooMuch, noCandidates⟩
  have enough := (sound.evict evicts).not_exceeds exceedsHardLimit_iff
    (fun other tile found inCache => by
      have kept := isProtected_of_no_candidates noCandidates found inCache
      rcases kept_of_evict evicts found with ⟨between, foundBetween, same⟩
      rcases kept_of_prepareTargets prepares foundBetween with
        ⟨old, foundOld, sameOld⟩
      rw [← (CachedRasterTexture.place_eq_iff.1 (sameOld.trans same)).1]
      apply FiniteMap.mem_image.2
      refine ⟨other, old, ?_, foundOld, rfl⟩
      simp only [Bool.and_eq_true, Bool.not_eq_true', decide_eq_true_eq, List.any_eq_false]
      refine ⟨⟨decide_eq_true inCache, kept⟩, ?_⟩
      intro target inTargets makes
      -- What is made again has gone.
      have isEntry : other ∈ entries.map Prod.fst := by
        rw [(prepareTargets_some prepares).1, List.map_map]
        exact List.mem_map.mpr ⟨target, List.mem_filter.mpr ⟨inTargets, makes.2⟩, makes.1⟩
      rcases List.mem_map.mp isEntry with ⟨entry, member, rfl⟩
      cases ((prepareTargets_some prepares).2.1 entry member).symm.trans foundBetween) room.2.2
  cases tooMuch.symm.trans enough

/-- A tile that is not made again stays while tiles are evicted for the batch. -/
theorem BatchSpares.evict {fits : Bool} (sound : middle.Sound config)
    (there : self.Resident hit) (stays : hit ∉ self.replaced batch size)
    (targeted : ∀ target ∈ batch.targets, batch.textureKey target ∈ isProtected)
    (spares : self.Spares batch.cacheId isProtected (self.replaced batch size)
      (config batch.cacheId).hardLimitBytes (textureBytes size) hit)
    (prepares : RasterRenderer.prepareTargets batch size batch.targets self =
      (some entries, middle))
    (evicts : RasterRenderer.evict batch.cacheId isProtected
      (exceedsHardLimit config batch.cacheId (textureBytes size)) evictions middle =
        some (fits, after)) : after.Resident hit := by
  -- Only targets have been touched.
  have untouched : ∀ {other}, other ∉ isProtected →
      middle.textures.get other = self.textures.get other := by
    intro other unprotected
    apply get_prepareTargets prepares
    rintro target member rfl
    exact unprotected (targeted target member)
  rcases there.prepareTargets stays prepares with ⟨tile, found⟩
  refine ⟨tile, sound.get_evict exceedsHardLimit_iff found ?_ evicts⟩
  intro inCache unprotected
  rw [untouched unprotected] at found
  refine ⟨_, ?_, spares inCache unprotected tile found⟩
  intro other otherTile foundOther otherInCache either
  rcases kept_of_prepareTargets prepares foundOther with ⟨old, foundOld, same⟩
  rw [← (CachedRasterTexture.place_eq_iff.1 same).1]
  apply FiniteMap.mem_image.2
  refine ⟨other, old, ?_, foundOld, rfl⟩
  simp only [Bool.and_eq_true, Bool.or_eq_true, decide_eq_true_eq]
  refine ⟨⟨decide_eq_true otherInCache, ?_⟩, ?_⟩
  · intro isReplaced
    rw [← mem_entries_iff prepares] at isReplaced
    rcases List.mem_map.mp isReplaced with ⟨entry, member, rfl⟩
    cases ((prepareTargets_some prepares).2.1 entry member).symm.trans foundOther
  · by_cases kept : other ∈ isProtected
    · exact Or.inl kept
    · rcases either with protected_ | used
      · exact absurd protected_ kept
      · rw [← untouched kept, foundOther]
        exact Or.inr (decide_eq_true used)

theorem replaced_ne_empty (some_ : entries ≠ [])
    (prepares : RasterRenderer.prepareTargets batch size batch.targets self =
      (some entries, middle)) : self.replaced batch size ≠ ∅ := by
  intro none
  apply some_
  rw [← List.map_eq_nil_iff (f := Prod.fst), List.eq_nil_iff_forall_not_mem]
  intro key member
  rw [mem_entries_iff prepares, none] at member
  exact Finset.notMem_empty key member

theorem PreparesBatch.resident {prepared : Option PreparedRasterBatchTexture}
    (prepares : PreparesBatch config self batch size isProtected evictions prepared after)
    (sound : self.Sound config) (there : self.Resident hit)
    (targeted : ∀ target ∈ batch.targets, batch.textureKey target ∈ isProtected)
    (spares : self.BatchSpares config batch size isProtected hit) : after.Resident hit := by
  have soundMiddle := sound.prepareTargets batch size batch.targets
  cases prepares with
  | refused => exact there
  | outOfPlace accepts prepares =>
      have spares := spares accepts
      split at spares
      next => exact absurd spares.2.1 (prepareTargets_none prepares)
      next stays => exact there.prepareTargets stays prepares
  | alreadyReady accepts prepares =>
      apply there.prepareTargets _ prepares
      rw [← mem_entries_iff prepares]
      exact List.not_mem_nil
  | full accepts some_ prepares evicts =>
      rw [prepares] at soundMiddle
      have spares := spares accepts
      split at spares
      next => exact absurd evicts (soundMiddle.not_full_batch prepares spares)
      next stays =>
        apply BatchSpares.evict soundMiddle there stays targeted _ prepares evicts
        exact spares (prepareTargets_some prepares).2.2 (replaced_ne_empty some_ prepares)
  | @allocated _ middle evicted entries accepts some_ prepares evicts =>
      rw [prepares] at soundMiddle
      have spares := spares accepts
      split at spares
      next isReplaced =>
        rcases get_insertTextures_of_mem evicted batch.cacheId (textureBytes size)
          batch.textureSize batch.gutter ((mem_entries_iff prepares).mpr isReplaced) with
            ⟨_, _, new⟩
        exact ⟨_, new⟩
      next stays =>
        have kept : evicted.Resident hit := by
          apply BatchSpares.evict soundMiddle there stays targeted _ prepares evicts
          exact spares (prepareTargets_some prepares).2.2 (replaced_ne_empty some_ prepares)
        apply kept.of_placeOf
        exact placeOf_insertTextures_of_not_mem evicted batch.cacheId (textureBytes size)
          batch.textureSize batch.gutter (mt (mem_entries_iff prepares).mp stays)

theorem PreparesBatch.fits {texture : Nat}
    (prepares : PreparesBatch config self batch size isProtected evictions
      (some (.allocated texture)) after) (sound : self.Sound config) :
    self.Fits config batch size isProtected := by
  cases prepares with
  | allocated accepts _ prepares evicts =>
      have soundMiddle := sound.prepareTargets batch size batch.targets
      rw [prepares] at soundMiddle
      exact soundMiddle.fits_of_evict accepts prepares evicts

/-! ## Sweeping -/

/-- Sweeping the caches leaves the tile resident. -/
theorem Sound.resident_sweep {sweeps : List (UInt64 × List CachedRasterTextureKey)}
    (sound : self.Sound config) {tile : CachedRasterTexture}
    (found : self.textures.get hit = some tile)
    (spares : ∀ entry ∈ sweeps, hit.cacheId = entry.1 → hit ∉ isProtected → 
      (∀ key other, self.textures.get key = some other → key.cacheId = entry.1 →
        key ∈ isProtected ∨ tile.lastUsedFrame ≤ other.lastUsedFrame →
          other.allocation ∈ allocations) ∧
      ∑ allocation ∈ allocations, allocation.bytes ≤ (config entry.1).softLimitBytes)
    (evicts : sweeps.foldlM (fun (renderer : RasterRenderer) entry =>
      renderer.evictOffscreen config entry.1 isProtected entry.2) self = some after) :
    after.Resident hit := by
  induction sweeps generalizing self with
  | nil =>
      rcases Option.some.inj evicts with rfl
      exact ⟨tile, found⟩
  | cons entry sweeps ih =>
      rw [List.foldlM_cons] at evicts
      rcases Option.bind_eq_some_iff.mp evicts with ⟨middle, first, rest⟩
      rcases Option.map_eq_some_iff.mp first with ⟨⟨fits, swept⟩, evicts, rfl⟩
      rw [List.forall_mem_cons] at spares
      apply ih (sound.evict evicts) _ _ rest
      · apply sound.get_evict exceedsSoftLimit_iff found _ evicts
        intro inCache unprotected
        exact ⟨allocations, spares.1 inCache unprotected⟩
      · intro other member inCache unprotected
        rcases spares.2 other member inCache unprotected with ⟨inside, room⟩
        refine ⟨?_, room⟩
        intro key otherTile foundOther
        rw [RasterRenderer.get_evict evicts, Option.ite_none_left_eq_some] at foundOther
        exact inside key otherTile foundOther.2

end RasterRenderer

/-! ## What is drawn later -/

namespace DrawStage

/-- The tiles that are composed by what is encoded next. -/
def now (scene : RasterScene) : DrawStage → Finset CachedRasterTextureKey
  | .prepareUpdate update _ => update.tiles
  | .encodeUpdate update _ _ => update.tiles
  | .prepareBatch batch _ => batch.tiles
  | .encodeBatch batch _ _ => batch.tiles
  | .evictOffscreen => ∅
  | .encodeScene => scene.tiles

/-- The tiles that are composed after that. -/
def later (scene : RasterScene) : DrawStage → Finset CachedRasterTextureKey
  | .prepareUpdate _ rest => RasterScene.updateTiles rest ∪
      (RasterScene.batchTiles scene.batches ∪ scene.tiles)
  | .encodeUpdate _ _ rest => RasterScene.updateTiles rest ∪
      (RasterScene.batchTiles scene.batches ∪ scene.tiles)
  | .prepareBatch _ rest => RasterScene.batchTiles rest ∪ scene.tiles
  | .encodeBatch _ _ rest => RasterScene.batchTiles rest ∪ scene.tiles
  | .evictOffscreen => scene.tiles
  | .encodeScene => ∅

/-- The batches are some of the scene. -/
def Within (scene : RasterScene) : DrawStage → Prop
  | .prepareBatch batch rest => ∀ other ∈ batch :: rest, other ∈ scene.batches
  | .encodeBatch batch _ rest => ∀ other ∈ batch :: rest, other ∈ scene.batches
  | _ => True

variable {scene : RasterScene}

theorem within_atBatches {batches : List RasterTileUpdateBatch}
    (within : ∀ batch ∈ batches, batch ∈ scene.batches) :
    (RasterScene.atBatches batches).Within scene := by
  cases batches with
  | nil => exact trivial
  | cons batch rest => exact within

theorem within_atUpdates (updates : List RasterTileUpdate) :
    (scene.atUpdates updates).Within scene := by
  cases updates with
  | nil => exact within_atBatches fun _ => id
  | cons update rest => exact trivial

theorem now_union_later_atBatches (batches : List RasterTileUpdateBatch) :
    (RasterScene.atBatches batches).now scene ∪ (RasterScene.atBatches batches).later scene =
      RasterScene.batchTiles batches ∪ scene.tiles := by
  cases batches with
  | nil => rfl
  | cons batch rest => exact (Finset.union_assoc ..).symm

theorem now_union_later_atUpdates (updates : List RasterTileUpdate) :
    (scene.atUpdates updates).now scene ∪ (scene.atUpdates updates).later scene =
      RasterScene.updateTiles updates ∪ (RasterScene.batchTiles scene.batches ∪ scene.tiles) := by
  cases updates with
  | nil =>
      apply (now_union_later_atBatches scene.batches).trans
      exact (Finset.empty_union _).symm
  | cons update rest => exact (Finset.union_assoc ..).symm

end DrawStage

namespace RasterDrawing

/-- The tiles that the scenes compose. -/
def sceneTiles (scenes : List RasterScene) : Finset CachedRasterTextureKey :=
  scenes.foldr (fun scene tiles => scene.allTiles ∪ tiles) ∅

/-- The hits that are composed by what is encoded are resident. -/
def Pinned (self : RasterDrawing) : Prop :=
  ∀ scene stage, self.scenes.head? = some scene → self.stage = some stage →
    isEncoding stage = true → ∀ hit ∈ self.hits, hit ∈ stage.now scene →
      self.renderer.Resident hit

/-- The tiles that are composed in the frame after what is encoded next. -/
def later (self : RasterDrawing) (scene : RasterScene) (stage : DrawStage) :
    Finset CachedRasterTextureKey :=
  stage.later scene ∪ sceneTiles self.scenes.tail

/-- No cache is released that has been hit, evicting spares the hits that are composed later,
and none that the scene composes has gone when it is tried again. -/
def Pins (config : UInt64 → RasterCacheConfig) (self : RasterDrawing) : DrawEvent → Prop
  | .lookup _ => ∀ hit ∈ self.hits, self.renderer.pruned hit.cacheId = false
  | .release cacheId => ∀ hit ∈ self.hits, hit.cacheId ≠ cacheId
  | .prepare _ => ∀ scene stage, self.scenes.head? = some scene → self.stage = some stage →
      ∀ hit ∈ self.hits,
        match stage with
        | .prepareUpdate update _ =>
            hit ∈ self.later scene stage ∨ hit ∈ update.tiles ∧
              self.renderer.HasRoom config update.textureKey update.textureSize
                scene.isProtected →
            self.renderer.UpdateSpares config update.textureKey update.textureSize
              scene.isProtected hit
        | .prepareBatch batch _ =>
            hit ∈ self.later scene stage ∨ hit ∈ batch.tiles ∧
              self.renderer.Fits config batch.toRasterTargets batch.size scene.isProtected →
            self.renderer.BatchSpares config batch.toRasterTargets batch.size
              scene.isProtected hit
        | _ => True
  | .evictOffscreen _ => ∀ scene, self.scenes.head? = some scene → ∀ hit ∈ self.hits,
      hit ∈ sceneTiles self.scenes.tail → hit.cacheId ∈ scene.caches →
        self.renderer.Spares hit.cacheId scene.isProtected ∅
          (config hit.cacheId).softLimitBytes 0 hit
  | .fail false => ∀ scene, self.scenes.head? = some scene → ∀ hit ∈ self.hits,
      hit ∈ scene.allTiles → self.renderer.Resident hit
  | _ => True

/-- The hits are resident while a frame is painted, and those that are composed later while
it is drawn. -/
structure Held (config : UInt64 → RasterCacheConfig) (drawing : RasterDrawing) : Prop where
  sound : drawing.renderer.Sound config
  painting : drawing.scenes = [] → drawing.stage = none ∧
    ∀ hit ∈ drawing.hits, drawing.renderer.Resident hit
  waiting : drawing.stage = none → ∀ hit ∈ drawing.hits, hit ∈ sceneTiles drawing.scenes →
    drawing.renderer.Resident hit
  encoding : ∀ scene stage, drawing.scenes.head? = some scene → drawing.stage = some stage →
    stage.Within scene ∧ ∀ hit ∈ drawing.hits,
      hit ∈ stage.now scene ∨ hit ∈ drawing.later scene stage → drawing.renderer.Resident hit

variable {config : UInt64 → RasterCacheConfig} {self next : RasterDrawing}

theorem Held.pinned (held : self.Held config) : self.Pinned := by
  intro scene stage isScene drawing _ hit isHit composed
  exact (held.encoding scene stage isScene drawing).2 hit isHit (Or.inl composed)

theorem held_new : new.Held config where
  sound := RasterRenderer.sound_new
  painting _ := ⟨rfl, fun hit isHit => absurd isHit (Finset.notMem_empty hit)⟩
  waiting _ hit isHit := absurd isHit (Finset.notMem_empty hit)
  encoding scene stage isScene := by cases isScene

variable {scene : RasterScene} {evictions : List CachedRasterTextureKey}

theorem Held.of_painting (sound : self.renderer.Sound config) (empty : self.scenes = [])
    (idle : self.stage = none) (held : ∀ hit ∈ self.hits, self.renderer.Resident hit) :
    self.Held config where
  sound := sound
  painting _ := ⟨idle, held⟩
  waiting _ hit isHit _ := held hit isHit
  encoding scene stage isScene := by
    rw [empty] at isScene
    cases isScene

theorem Held.of_encoding {stage : DrawStage} (sound : self.renderer.Sound config)
    (isScene : self.scenes.head? = some scene) (drawing : self.stage = some stage)
    (within : stage.Within scene)
    (held : ∀ hit ∈ self.hits, hit ∈ stage.now scene ∪ stage.later scene ∨
      hit ∈ sceneTiles self.scenes.tail → self.renderer.Resident hit) :
    self.Held config where
  sound := sound
  painting empty := by
    rw [empty] at isScene
    cases isScene
  waiting idle := by
    rw [idle] at drawing
    cases drawing
  encoding other otherStage isOther drawingOther := by
    rcases Option.some.inj (isScene.symm.trans isOther) with rfl
    rcases Option.some.inj (drawing.symm.trans drawingOther) with rfl
    refine ⟨within, ?_⟩
    intro hit isHit composed
    apply held hit isHit
    rw [later, Finset.mem_union] at composed
    rw [Finset.mem_union, or_assoc]
    exact composed

/-- What the later scenes compose is there when the scene is left. -/
theorem Held.leaveScene (sound : self.renderer.Sound config)
    (held : ∀ hit ∈ self.hits, hit ∈ sceneTiles self.scenes.tail → self.renderer.Resident hit) :
    self.leaveScene.Held config where
  sound := sound
  painting empty := by
    refine ⟨rfl, ?_⟩
    intro hit isHit
    have none : self.scenes.tail.isEmpty = true := List.isEmpty_iff.mpr empty
    rw [RasterDrawing.leaveScene, if_pos none] at isHit
    cases Finset.notMem_empty hit isHit
  waiting _ hit isHit composed := by
    apply held hit _ composed
    rw [RasterDrawing.leaveScene] at isHit
    split at isHit
    next => cases Finset.notMem_empty hit isHit
    next => exact isHit
  encoding scene stage _ drawing := by cases drawing

/-- The tiles of caches that have a handle stay when a tile is looked up. -/
theorem resident_lookup {self : RasterRenderer} {key hit : CachedRasterTextureKey}
    (there : self.Resident hit) (stays : self.pruned hit.cacheId = false) :
    (self.rasterTileLookup key).2.Resident hit := by
  rcases there with ⟨tile, found⟩
  have pruned : self.pruneReleasedRasterCaches.textures.get hit = some tile := by
    apply FiniteMap.get_retain_eq_some_iff.2
    rw [stays]
    exact ⟨rfl, found⟩
  rw [RasterRenderer.rasterTileLookup]
  cases looked : self.pruneReleasedRasterCaches.textures.get key with
  | none => exact ⟨tile, pruned⟩
  | some other =>
      have there : self.pruneReleasedRasterCaches.Resident hit := ⟨tile, pruned⟩
      exact there.of_placeOf (RasterRenderer.placeOf_touch looked hit)

theorem resident_of_hit {self : RasterRenderer} {key : CachedRasterTextureKey}
    (isHit : (self.rasterTileLookup key).1 ≠ .miss) :
    (self.rasterTileLookup key).2.Resident key := by
  rw [RasterRenderer.rasterTileLookup] at isHit ⊢
  cases looked : self.pruneReleasedRasterCaches.textures.get key with
  | none =>
      simp only [looked] at isHit
      exact absurd rfl isHit
  | some tile => exact ⟨_, FiniteMap.get_insert_self ..⟩

theorem targeted {batch : RasterTileUpdateBatch} (member : batch ∈ scene.batches) :
    ∀ target ∈ batch.targets, batch.textureKey target ∈ scene.isProtected := by
  intro target isTarget
  apply Finset.mem_union_right
  rw [List.mem_toFinset]
  exact List.mem_flatMap.mpr ⟨batch, member, List.mem_map_of_mem isTarget⟩

theorem Held.prepareUpdate {update : RasterTileUpdate} {rest : List RasterTileUpdate}
    (held : self.Held config) (isScene : self.scenes.head? = some scene)
    (drawing : self.stage = some (.prepareUpdate update rest))
    (spares : ∀ hit ∈ self.hits, hit ∈ self.later scene (.prepareUpdate update rest) ∨
      hit ∈ update.tiles ∧ self.renderer.HasRoom config update.textureKey update.textureSize
        scene.isProtected →
      self.renderer.UpdateSpares config update.textureKey update.textureSize scene.isProtected hit)
    (prepared : self.prepareUpdate config scene update rest evictions = some next) :
    next.Held config := by
  rcases prepareUpdate_eq prepared with ⟨texture, result, stage, scenes, hits⟩
  have prepares := RasterRenderer.Prepares.of_eq result
  have there := (held.encoding _ _ isScene drawing).2
  cases texture with
  | none =>
      apply Held.of_encoding (prepares.sound held.sound) (scenes ▸ isScene) stage
      · exact DrawStage.within_atUpdates rest
      · intro hit isHit composed
        rw [hits] at isHit
        have isLater : hit ∈ self.later scene (.prepareUpdate update rest) := by
          rw [Option.elim_none, DrawStage.now_union_later_atUpdates, scenes] at composed
          exact Finset.mem_union.mpr composed
        exact prepares.resident held.sound (there hit isHit (Or.inr isLater))
          (spares hit isHit (Or.inl isLater))
  | some texture =>
      apply Held.of_encoding (prepares.sound held.sound) (scenes ▸ isScene) stage
      · exact trivial
      · intro hit isHit composed
        rw [hits] at isHit
        rw [scenes, Finset.mem_union, or_assoc] at composed
        rcases composed with isNow | isLater
        · apply prepares.resident held.sound (there hit isHit (Or.inl isNow))
          intro accepts missing
          exact spares hit isHit (Or.inr ⟨isNow, prepares.hasRoom held.sound missing⟩)
            accepts missing
        · have isLater : hit ∈ self.later scene (.prepareUpdate update rest) :=
            Finset.mem_union.mpr isLater
          exact prepares.resident held.sound (there hit isHit (Or.inr isLater))
            (spares hit isHit (Or.inl isLater))

theorem Held.prepareBatch {batch : RasterTileUpdateBatch} {rest : List RasterTileUpdateBatch}
    (held : self.Held config) (isScene : self.scenes.head? = some scene)
    (drawing : self.stage = some (.prepareBatch batch rest))
    (spares : ∀ hit ∈ self.hits, hit ∈ self.later scene (.prepareBatch batch rest) ∨
      hit ∈ batch.tiles ∧ self.renderer.Fits config batch.toRasterTargets batch.size
        scene.isProtected →
      self.renderer.BatchSpares config batch.toRasterTargets batch.size scene.isProtected hit)
    (prepared : self.prepareBatch config scene batch rest evictions = some next) :
    next.Held config := by
  rcases prepareBatch_eq prepared with ⟨texture, result, stage, scenes, hits⟩
  have prepares := RasterRenderer.PreparesBatch.of_eq result
  rcases held.encoding _ _ isScene drawing with ⟨within, there⟩
  have isTargeted := targeted (within batch List.mem_cons_self)
  rcases stage with stage | ⟨allocated, rfl, stage⟩
  · apply Held.of_encoding (prepares.sound held.sound) (scenes ▸ isScene) stage
    · exact DrawStage.within_atBatches fun other member => within other (List.mem_cons_of_mem _ member)
    · intro hit isHit composed
      rw [hits] at isHit
      have isLater : hit ∈ self.later scene (.prepareBatch batch rest) := by
        rw [DrawStage.now_union_later_atBatches, scenes] at composed
        exact Finset.mem_union.mpr composed
      exact prepares.resident held.sound (there hit isHit (Or.inr isLater)) isTargeted
        (spares hit isHit (Or.inl isLater))
  · apply Held.of_encoding (prepares.sound held.sound) (scenes ▸ isScene) stage
    · exact within
    · intro hit isHit composed
      rw [hits] at isHit
      rw [scenes, Finset.mem_union, or_assoc] at composed
      rcases composed with isNow | isLater
      · exact prepares.resident held.sound (there hit isHit (Or.inl isNow)) isTargeted
          (spares hit isHit (Or.inr ⟨isNow, prepares.fits held.sound⟩))
      · have isLater : hit ∈ self.later scene (.prepareBatch batch rest) :=
          Finset.mem_union.mpr isLater
        exact prepares.resident held.sound (there hit isHit (Or.inr isLater)) isTargeted
          (spares hit isHit (Or.inl isLater))

theorem Held.encode (held : self.Held config) (encodes : self.encode = some next) :
    next.Held config := by
  rcases Option.bind_eq_some_iff.mp encodes with ⟨scene, isScene, encodes⟩
  split at encodes
  next update texture rest drawing =>
    rcases Option.some.inj encodes with rfl
    have there := (held.encoding _ _ isScene drawing).2
    refine Held.of_encoding held.sound isScene rfl (DrawStage.within_atUpdates rest) ?_
    intro hit isHit composed
    rw [DrawStage.now_union_later_atUpdates] at composed
    exact there hit isHit (Or.inr (Finset.mem_union.mpr composed))
  next batch texture rest drawing =>
    rcases Option.some.inj encodes with rfl
    rcases held.encoding _ _ isScene drawing with ⟨within, there⟩
    refine Held.of_encoding held.sound isScene rfl ?_ ?_
    · exact DrawStage.within_atBatches fun other member => within other (List.mem_cons_of_mem _ member)
    · intro hit isHit composed
      rw [DrawStage.now_union_later_atBatches] at composed
      exact there hit isHit (Or.inr (Finset.mem_union.mpr composed))
  next => cases encodes

theorem Held.evictOffscreen {sweeps : List (UInt64 × List CachedRasterTextureKey)}
    (held : self.Held config)
    (spares : ∀ scene, self.scenes.head? = some scene → ∀ hit ∈ self.hits,
      hit ∈ sceneTiles self.scenes.tail → hit.cacheId ∈ scene.caches →
        self.renderer.Spares hit.cacheId scene.isProtected ∅
          (config hit.cacheId).softLimitBytes 0 hit)
    (evicts : self.evictOffscreen config sweeps = some next) : next.Held config := by
  rcases Option.bind_eq_some_iff.mp evicts with ⟨scene, isScene, evicts⟩
  split at evicts
  next drawing =>
    rcases Option.ite_none_right_eq_some.mp evicts with ⟨⟨_, caches⟩, swept⟩
    rcases Option.bind_eq_some_iff.mp swept with ⟨renderer, sweeping, same⟩
    rcases Option.some.inj same with rfl
    refine Held.of_encoding (sound_of_sweep held.sound sweeping) isScene rfl trivial ?_
    intro hit isHit composed
    have isLater : hit ∈ self.later scene .evictOffscreen := by
      rw [later, Finset.mem_union]
      rcases composed with ofScene | ofLater
      · rw [Finset.mem_union] at ofScene
        rcases ofScene with now | later
        · exact Or.inl now
        · cases Finset.notMem_empty hit later
      · exact Or.inr ofLater
    rcases (held.encoding _ _ isScene drawing).2 hit isHit (Or.inr isLater) with ⟨tile, found⟩
    apply held.sound.resident_sweep found _ sweeping
    · exact self.renderer.retained hit.cacheId scene.isProtected ∅ tile.lastUsedFrame
    · intro entry member inCache unprotected
      have composedLater : hit ∈ sceneTiles self.scenes.tail := by
        rcases Finset.mem_union.mp isLater with ofScene | ofLater
        · apply absurd _ unprotected
          exact Finset.mem_union_left _ (Finset.mem_union_left _ (Finset.mem_union_left _ ofScene))
        · exact ofLater
      have swept : hit.cacheId ∈ scene.caches := by
        rw [inCache, ← List.mem_toFinset, ← caches, List.mem_toFinset]
        exact List.mem_map_of_mem member
      rw [← inCache]
      refine ⟨?_, spares scene isScene hit isHit composedLater swept rfl unprotected tile found⟩
      intro other otherTile foundOther otherInCache either
      apply FiniteMap.mem_image.2
      refine ⟨other, otherTile, ?_, foundOther, rfl⟩
      simp only [Bool.and_eq_true, Bool.or_eq_true, decide_eq_true_eq]
      refine ⟨⟨decide_eq_true otherInCache, Finset.notMem_empty other⟩, ?_⟩
      rw [foundOther]
      rcases either with kept | used
      · exact Or.inl kept
      · exact Or.inr (decide_eq_true used)
  next => cases evicts

theorem Held.step (held : self.Held config) {event : DrawEvent}
    (pins : self.Pins config event) (steps : self.step config event = some next) :
    next.Held config := by
  cases event with
  | lookup key =>
      rcases Option.ite_none_right_eq_some.mp steps with ⟨empty, same⟩
      rcases Option.some.inj same with rfl
      rcases held.painting empty with ⟨idle, there⟩
      refine Held.of_painting (held.sound.lookup key) empty idle ?_
      intro hit isHit
      have stays : hit ∈ self.hits →
          (self.renderer.rasterTileLookup key).2.Resident hit :=
        fun wasHit => resident_lookup (there hit wasHit) (pins hit wasHit)
      change hit ∈ if (self.renderer.rasterTileLookup key).1 = .miss then self.hits
        else insert key self.hits at isHit
      by_cases missed : (self.renderer.rasterTileLookup key).1 = .miss
      · rw [if_pos missed] at isHit
        exact stays isHit
      · rw [if_neg missed] at isHit
        rcases Finset.mem_insert.mp isHit with rfl | wasHit
        · exact resident_of_hit missed
        · exact stays wasHit
  | release cacheId =>
      rcases Option.ite_none_right_eq_some.mp steps with ⟨empty, same⟩
      rcases Option.some.inj same with rfl
      rcases held.painting empty with ⟨idle, there⟩
      refine Held.of_painting (held.sound.release cacheId) empty idle ?_
      intro hit isHit
      rcases there hit isHit with ⟨tile, found⟩
      refine ⟨tile, FiniteMap.get_retain_eq_some_iff.2 ⟨?_, found⟩⟩
      exact decide_eq_true (pins hit isHit)
  | dropOwner cacheId =>
      rcases Option.ite_none_right_eq_some.mp steps with ⟨empty, same⟩
      rcases Option.some.inj same with rfl
      rcases held.painting empty with ⟨idle, there⟩
      exact .of_painting (held.sound.dropOwner cacheId) empty idle there
  | draw scenes =>
      rcases Option.ite_none_right_eq_some.mp steps with ⟨empty, same⟩
      rcases Option.some.inj same with rfl
      rcases held.painting empty with ⟨idle, there⟩
      constructor
      · apply held.sound.congr_places
        · exact fun _ => rfl
        · rfl
        · rfl
      · exact fun _ => ⟨idle, there⟩
      · exact fun _ hit isHit _ => there hit isHit
      · intro scene stage _ drawing
        rw [idle] at drawing
        cases drawing
  | skip =>
      rcases Option.ite_none_right_eq_some.mp steps with ⟨⟨some_, idle⟩, same⟩
      rcases Option.some.inj same with rfl
      apply Held.leaveScene held.sound
      intro hit isHit composed
      apply held.waiting (Option.isNone_iff_eq_none.mp idle) hit isHit
      rw [← List.cons_head_tail some_]
      exact Finset.mem_union_right _ composed
  | begin_ =>
      rcases Option.bind_eq_some_iff.mp steps with ⟨scene, isScene, steps⟩
      rcases Option.ite_none_right_eq_some.mp steps with ⟨idle, same⟩
      rcases Option.some.inj same with rfl
      refine Held.of_encoding held.sound isScene rfl (DrawStage.within_atUpdates _) ?_
      intro hit isHit composed
      apply held.waiting (Option.isNone_iff_eq_none.mp idle) hit isHit
      rw [DrawStage.now_union_later_atUpdates] at composed
      rw [← List.cons_head?_tail isScene]
      exact Finset.mem_union.mpr composed
  | prepare evictions =>
      rcases Option.bind_eq_some_iff.mp steps with ⟨scene, isScene, steps⟩
      split at steps
      next update rest drawing =>
        apply held.prepareUpdate isScene drawing _ steps
        exact pins scene _ isScene drawing
      next batch rest drawing =>
        apply held.prepareBatch isScene drawing _ steps
        exact pins scene _ isScene drawing
      next => cases steps
  | encode => exact held.encode steps
  | fail giveUp =>
      rcases Option.bind_eq_some_iff.mp steps with ⟨scene, isScene, steps⟩
      rcases Option.bind_eq_some_iff.mp steps with ⟨stage, drawing, steps⟩
      rcases Option.ite_none_right_eq_some.mp steps with ⟨_, steps⟩
      have there := (held.encoding _ _ isScene drawing).2
      have later : ∀ hit ∈ self.hits, hit ∈ sceneTiles self.scenes.tail →
          self.renderer.Resident hit :=
        fun hit isHit composed =>
          there hit isHit (Or.inr (Finset.mem_union_right _ composed))
      cases giveUp with
      | true =>
          rcases Option.some.inj steps with rfl
          exact .leaveScene held.sound later
      | false =>
          rcases Option.some.inj steps with rfl
          refine Held.of_encoding held.sound isScene rfl (DrawStage.within_atUpdates _) ?_
          intro hit isHit composed
          rw [DrawStage.now_union_later_atUpdates] at composed
          rcases composed with ofScene | ofLater
          · exact pins scene isScene hit isHit ofScene
          · exact later hit isHit ofLater
  | evictOffscreen sweeps => exact held.evictOffscreen pins steps
  | submit =>
      rw [RasterDrawing.step] at steps
      split at steps
      next drawing =>
        rcases Option.ite_none_left_eq_some.mp steps with ⟨some_, same⟩
        rcases Option.some.inj same with rfl
        have isScene := List.head?_eq_some_head some_
        refine Held.leaveScene held.sound ?_
        intro hit isHit composed
        apply (held.encoding _ _ isScene drawing).2 hit isHit
        exact Or.inr (Finset.mem_union_right _ composed)
      next => cases steps

/-- The hits are there when they are composed, in every run that spares them. -/
theorem run_pinned {events : List DrawEvent}
    (run : Run (step config) (Pins config) new events self) : self.Pinned := by
  have held : self.Held config := by
    apply run.invariant fun _ drawing => drawing.Held config
    · exact held_new
    · exact fun held pins steps => held.step pins steps
  exact held.pinned

def pinnedTile : CachedRasterTextureKey :=
  ⟨1, 7, 1⟩

/-- The scene of the only update composes these tiles. -/
def updatedScene (key : UInt64) (height : Int) (tiles : Finset CachedRasterTextureKey) :
    RasterScene where
  tiles := ∅
  updates := [⟨⟨1, key, 1⟩, ⟨8, height⟩, 0, tiles⟩]
  batches := []

set_option maxRecDepth 4000 in
theorem run_pinned_update :
    ∃ drawing : RasterDrawing, drawing.Pinned ∧ drawing.renderer.Resident pinnedTile ∧
      drawing.hits = {pinnedTile} ∧
      drawing.stage = some (.encodeUpdate ⟨⟨1, 8, 1⟩, ⟨8, 8⟩, 0, {pinnedTile}⟩ 1 []) := by
  have runs : ∃ (before drawing : RasterDrawing) (tile : CachedRasterTexture),
      Run (step fun _ => RasterRenderer.smallCache) (Pins fun _ => RasterRenderer.smallCache) new
        [.draw [updatedScene 7 8 ∅], .begin_, .prepare [], .encode, .evictOffscreen [(1, [])],
          .submit, .lookup pinnedTile, .draw [updatedScene 8 8 {pinnedTile}], .begin_] before ∧
      before.hits = {pinnedTile} ∧
      before.scenes = [updatedScene 8 8 {pinnedTile}] ∧
      before.stage = some (.prepareUpdate ⟨⟨1, 8, 1⟩, ⟨8, 8⟩, 0, {pinnedTile}⟩ []) ∧
      before.renderer.textures.get pinnedTile = some tile ∧
      ∑ allocation ∈ before.renderer.retained 1 (updatedScene 8 8 {pinnedTile}).isProtected
        {⟨1, 8, 1⟩} tile.lastUsedFrame, allocation.bytes + 256 ≤ 512 ∧
      step (fun _ => RasterRenderer.smallCache) before (.prepare []) = some drawing ∧
      drawing.renderer.Resident pinnedTile ∧ drawing.hits = {pinnedTile} ∧
      drawing.stage = some (.encodeUpdate ⟨⟨1, 8, 1⟩, ⟨8, 8⟩, 0, {pinnedTile}⟩ 1 []) := by
    refine ⟨_, _, _, .cons trivial rfl (.cons trivial rfl (.cons ?_ rfl (.cons trivial rfl
      (.cons ?_ rfl (.cons trivial rfl (.cons ?_ rfl (.cons trivial rfl (.cons trivial rfl
        .nil)))))))), rfl, rfl, rfl, rfl, of_decide_eq_true rfl, rfl, ⟨_, rfl⟩, rfl, rfl⟩
    · exact fun _ _ _ _ hit isHit => absurd isHit (Finset.notMem_empty hit)
    · exact fun _ _ hit isHit => absurd isHit (Finset.notMem_empty hit)
    · exact fun hit isHit => absurd isHit (Finset.notMem_empty hit)
  rcases runs with ⟨before, drawing, tile, run, hits, scenes, stage, found, room, steps, after⟩
  have pins : before.Pins (fun _ => RasterRenderer.smallCache) (.prepare []) := by
    intro scene other isScene drawing hit isHit
    rw [scenes] at isScene
    rcases Option.some.inj isScene with rfl
    rcases Option.some.inj (stage.symm.trans drawing) with rfl
    rw [hits, Finset.mem_singleton] at isHit
    rcases isHit with rfl
    intro _ _ _ _ _ otherTile foundOther
    rcases Option.some.inj (found.symm.trans foundOther) with rfl
    exact room
  exact ⟨drawing, run_pinned (run.snoc pins steps), after⟩

/-- A tile is evicted for the update that composes it. -/
theorem not_run_pinned :
    ¬ ∀ (drawing : RasterDrawing) (events : List DrawEvent),
      Run (step fun _ => RasterRenderer.smallCache) (fun _ _ => True) new events drawing →
        drawing.Pinned := by
  intro pinned
  have evicts : ∃ drawing scene stage,
      [DrawEvent.draw [updatedScene 7 8 ∅], .begin_, .prepare [], .encode,
        .evictOffscreen [(1, [])], .submit, .lookup pinnedTile,
        .draw [updatedScene 8 16 {pinnedTile}], .begin_, .prepare [pinnedTile]].foldlM
          (step fun _ => RasterRenderer.smallCache) new = some drawing ∧
      drawing.scenes.head? = some scene ∧ drawing.stage = some stage ∧
      isEncoding stage = true ∧ drawing.hits = {pinnedTile} ∧ stage.now scene = {pinnedTile} ∧
      drawing.renderer.textures.get pinnedTile = none :=
    ⟨_, _, _, rfl, rfl, rfl, rfl, rfl, rfl, rfl⟩
  rcases evicts with ⟨drawing, scene, stage, runs, isScene, isStage, encodes, hits, now, gone⟩
  rcases pinned drawing _ (.of_foldlM runs) scene stage isScene isStage encodes pinnedTile
    (hits ▸ Finset.mem_singleton_self _) (now ▸ Finset.mem_singleton_self _) with ⟨tile, found⟩
  cases gone.symm.trans found

end RasterDrawing

end Gpui
