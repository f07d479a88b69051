import Gpui.RasterCache.Textures

/-!
# Which tiles stay

What looking up, evicting and preparing do to the tiles: a tile stays where it is unless it
is evicted or replaced, or its cache is released.
-/

namespace Gpui

open Library

/-- The texture but for when it was used. -/
def CachedRasterTexture.place (self : CachedRasterTexture) : CachedRasterTexture :=
  { self with lastUsedFrame := 0 }

theorem CachedRasterTexture.place_eq_iff {first second : CachedRasterTexture} :
    first.place = second.place ↔ first.allocation = second.allocation ∧
      first.sourceOrigin = second.sourceOrigin ∧ first.sourceSize = second.sourceSize ∧
        first.gutter = second.gutter := by
  rw [place, place, CachedRasterTexture.mk.injEq]
  simp only [and_true]

namespace RasterRenderer

/-- Where the tile is, if it is resident. -/
def placeOf (self : RasterRenderer) (key : CachedRasterTextureKey) : Option CachedRasterTexture :=
  (self.textures.get key).map CachedRasterTexture.place

variable {self after : RasterRenderer}

theorem placeOf_eq_none_iff {key : CachedRasterTextureKey} :
    self.placeOf key = none ↔ self.textures.get key = none :=
  Option.map_eq_none_iff

theorem exists_of_placeOf {key : CachedRasterTextureKey} (same : after.placeOf key = self.placeOf key)
    {texture : CachedRasterTexture} (found : after.textures.get key = some texture) :
    ∃ old, self.textures.get key = some old ∧ old.place = texture.place := by
  rw [placeOf, placeOf, found] at same
  exact Option.map_eq_some_iff.mp same.symm

/-- A tile that is there has stayed, where others have gone. -/
theorem exists_of_kept {key : CachedRasterTextureKey}
    (kept : after.placeOf key = none ∨ after.placeOf key = self.placeOf key)
    {texture : CachedRasterTexture} (found : after.textures.get key = some texture) :
    ∃ old, self.textures.get key = some old ∧ old.place = texture.place := by
  rcases kept with gone | same
  · rw [placeOf_eq_none_iff, found] at gone
    cases gone
  · exact exists_of_placeOf same found

theorem map_allocation_of_placeOf {key : CachedRasterTextureKey}
    (same : after.placeOf key = self.placeOf key) :
    (after.textures.get key).map CachedRasterTexture.allocation =
      (self.textures.get key).map CachedRasterTexture.allocation := by
  have places := congrArg (Option.map CachedRasterTexture.allocation) same
  rw [placeOf, placeOf, Option.map_map, Option.map_map] at places
  exact places

/-! ## Touching and removing -/

theorem placeOf_touch {key : CachedRasterTextureKey} {texture : CachedRasterTexture}
    (found : self.textures.get key = some texture) (other : CachedRasterTextureKey) :
    (self.touch key texture).placeOf other = self.placeOf other := by
  rw [placeOf, touch, FiniteMap.get_insert]
  split
  next same =>
    rw [same, placeOf, found]
    rfl
  next => rfl

theorem removeRasterTexture_none {key : CachedRasterTextureKey}
    (missing : self.textures.get key = none) (evicted : Bool) :
    self.removeRasterTexture key evicted = self := by
  rw [removeRasterTexture, missing]

theorem textures_remove {key : CachedRasterTextureKey} {texture : CachedRasterTexture}
    (found : self.textures.get key = some texture) (evicted : Bool) :
    (self.removeRasterTexture key evicted).textures = self.textures.erase key := by
  rw [removeRasterTexture, found]

theorem get_remove (key : CachedRasterTextureKey) (evicted : Bool)
    (other : CachedRasterTextureKey) :
    (self.removeRasterTexture key evicted).textures.get other =
      if other = key then none else self.textures.get other := by
  cases found : self.textures.get key with
  | none =>
      rw [removeRasterTexture_none found]
      split
      next same => rw [same, found]
      next => rfl
  | some texture => rw [textures_remove found, FiniteMap.get_erase]

theorem placeOf_remove (key : CachedRasterTextureKey) (evicted : Bool)
    (other : CachedRasterTextureKey) :
    (self.removeRasterTexture key evicted).placeOf other =
      if other = key then none else self.placeOf other := by
  rw [placeOf, get_remove]
  split <;> rfl

@[simp]
theorem created_remove (key : CachedRasterTextureKey) (evicted : Bool) :
    (self.removeRasterTexture key evicted).created = self.created := by
  rw [removeRasterTexture]
  cases self.textures.get key <;> rfl

@[simp]
theorem frameIndex_remove (key : CachedRasterTextureKey) (evicted : Bool) :
    (self.removeRasterTexture key evicted).frameIndex = self.frameIndex := by
  rw [removeRasterTexture]
  cases self.textures.get key <;> rfl

/-! ## Evicting -/

variable {cacheId : UInt64} {isProtected : Finset CachedRasterTextureKey}
  {exceeds : RasterRenderer → Bool} {evictions : List CachedRasterTextureKey}

/-- What holds before tiles are evicted and survives the loss of each candidate holds
afterwards.  There is not too much then, or nothing is left to evict. -/
theorem evict_invariant {fits : Bool} (property : RasterRenderer → Prop) (start : property self)
    (preserved : ∀ {renderer key}, property renderer →
      key ∈ renderer.candidates cacheId isProtected → property (renderer.removeRasterTexture key true))
    (evicts : evict cacheId isProtected exceeds evictions self = some (fits, after)) :
    property after ∧
      if fits then exceeds after = false
      else exceeds after = true ∧ after.candidates cacheId isProtected = ∅ := by
  induction evictions generalizing self with
  | nil =>
      rw [evict] at evicts
      split at evicts
      next enough =>
        rcases Option.some.inj evicts with ⟨⟩
        exact ⟨start, enough⟩
      next tooMuch =>
        rcases Option.ite_none_right_eq_some.mp evicts with ⟨none, same⟩
        rcases Option.some.inj same with ⟨⟩
        exact ⟨start, Bool.not_eq_false _ ▸ tooMuch, none⟩
  | cons candidate rest ih =>
      rw [evict] at evicts
      rcases Option.ite_none_right_eq_some.mp evicts with ⟨⟨_, candidates, _⟩, evicts⟩
      exact ih (preserved start candidates) evicts

/-- Just the tiles that are evicted go. -/
theorem get_evict {fits : Bool}
    (evicts : evict cacheId isProtected exceeds evictions self = some (fits, after))
    (key : CachedRasterTextureKey) :
    after.textures.get key = if key ∈ evictions then none else self.textures.get key := by
  induction evictions generalizing self with
  | nil =>
      have same : after = self := by
        rw [evict] at evicts
        split at evicts
        next => exact (congrArg Prod.snd (Option.some.inj evicts)).symm
        next =>
          rcases Option.ite_none_right_eq_some.mp evicts with ⟨_, same⟩
          exact (congrArg Prod.snd (Option.some.inj same)).symm
      rw [same, if_neg List.not_mem_nil]
  | cons candidate rest ih =>
      rw [evict] at evicts
      rcases Option.ite_none_right_eq_some.mp evicts with ⟨_, evicts⟩
      rw [ih evicts, get_remove]
      by_cases same : key = candidate
      · rw [if_pos same, ite_self, if_pos]
        rw [same]
        exact List.mem_cons_self
      · rw [if_neg same]
        simp only [List.mem_cons, same, false_or]

theorem placeOf_evict {fits : Bool}
    (evicts : evict cacheId isProtected exceeds evictions self = some (fits, after))
    (key : CachedRasterTextureKey) :
    after.placeOf key = if key ∈ evictions then none else self.placeOf key := by
  rw [placeOf, get_evict evicts]
  split <;> rfl

/-- A tile that is there after evictions was there before. -/
theorem kept_of_evict {fits : Bool}
    (evicts : evict cacheId isProtected exceeds evictions self = some (fits, after))
    {key : CachedRasterTextureKey} {texture : CachedRasterTexture}
    (found : after.textures.get key = some texture) :
    ∃ old, self.textures.get key = some old ∧ old.place = texture.place := by
  apply exists_of_kept _ found
  rw [placeOf_evict evicts]
  split
  next => exact Or.inl rfl
  next => exact Or.inr rfl

theorem candidate_of_mem_evictions {fits : Bool}
    (evicts : evict cacheId isProtected exceeds evictions self = some (fits, after))
    {key : CachedRasterTextureKey} (evicted : key ∈ evictions) :
    key.cacheId = cacheId ∧ key ∉ isProtected := by
  induction evictions generalizing self with
  | nil => cases evicted
  | cons candidate rest ih =>
      rw [evict] at evicts
      rcases Option.ite_none_right_eq_some.mp evicts with ⟨⟨_, candidates, _⟩, evicts⟩
      rcases List.mem_cons.mp evicted with rfl | later
      · exact (Finset.mem_filter.mp candidates).2
      · exact ih evicts later

theorem created_evict {fits : Bool}
    (evicts : evict cacheId isProtected exceeds evictions self = some (fits, after)) :
    after.created = self.created := by
  have keeps := evict_invariant (fun renderer => renderer.created = self.created) rfl
    (fun same _ => (created_remove ..).trans same) evicts
  exact keeps.1

/-! ## Inserting -/

theorem placeOf_insertTextures_of_not_mem (self : RasterRenderer) (cacheId : UInt64)
    (bytes : Nat) (sourceSize : Size Int) (gutter : Int)
    {entries : List (CachedRasterTextureKey × Point Int)} {key : CachedRasterTextureKey}
    (old : key ∉ entries.map Prod.fst) :
    (self.insertTextures cacheId bytes sourceSize gutter entries).placeOf key =
      self.placeOf key := by
  rw [placeOf, insertTextures, updateStats]
  simp only
  rw [FiniteMap.get_insertAll_of_not_mem, placeOf]
  rw [List.map_map]
  exact old

theorem get_insertTextures_of_mem (self : RasterRenderer) (cacheId : UInt64) (bytes : Nat)
    (sourceSize : Size Int) (gutter : Int)
    {entries : List (CachedRasterTextureKey × Point Int)} {key : CachedRasterTextureKey}
    (new : key ∈ entries.map Prod.fst) :
    ∃ origin, (key, origin) ∈ entries ∧
      (self.insertTextures cacheId bytes sourceSize gutter entries).textures.get key = some
        { allocation := ⟨self.created, bytes⟩
          sourceOrigin := origin
          sourceSize
          gutter := gutter.toNat
          lastUsedFrame := self.frameIndex } := by
  rw [insertTextures, updateStats]
  simp only
  have inserted : key ∈ (entries.map fun entry : CachedRasterTextureKey × Point Int => (entry.1,
      ({ allocation := ⟨self.created, bytes⟩
         sourceOrigin := entry.2
         sourceSize
         gutter := gutter.toNat
         lastUsedFrame := self.frameIndex } : CachedRasterTexture))).map Prod.fst := by
    rw [List.map_map]
    exact new
  rcases FiniteMap.get_insertAll_of_mem self.textures inserted with ⟨texture, member, found⟩
  rcases List.mem_map.mp member with ⟨entry, inEntries, same⟩
  rcases Prod.mk.inj same with ⟨rfl, rfl⟩
  exact ⟨entry.2, inEntries, found⟩

@[simp]
theorem created_insertTextures (bytes : Nat) (sourceSize : Size Int) (gutter : Int)
    (entries : List (CachedRasterTextureKey × Point Int)) :
    (self.insertTextures cacheId bytes sourceSize gutter entries).created = self.created + 1 :=
  rfl

/-! ## Preparing -/

variable {config : UInt64 → RasterCacheConfig}

/-- What preparing a texture for one tile may do. -/
inductive Prepares (config : UInt64 → RasterCacheConfig) (self : RasterRenderer)
    (key : CachedRasterTextureKey) (size : Size Int) (gutter : Int)
    (isProtected : Finset CachedRasterTextureKey) :
    List CachedRasterTextureKey → Option Nat → RasterRenderer → Prop where
  | refused (refuses : refuses config key.cacheId size = true) :
      Prepares config self key size gutter isProtected [] none self
  | existing {texture : CachedRasterTexture} (accepts : refuses config key.cacheId size = false)
      (found : self.hasSize key size = some texture) :
      Prepares config self key size gutter isProtected [] (some texture.allocation.texture)
        (self.touch key texture)
  | full {evictions : List CachedRasterTextureKey} {after : RasterRenderer}
      (accepts : refuses config key.cacheId size = false) (missing : self.hasSize key size = none)
      (evicts : evict key.cacheId isProtected
        (exceedsHardLimit config key.cacheId (textureBytes size)) evictions
        (self.removeRasterTexture key false) = some (false, after)) :
      Prepares config self key size gutter isProtected evictions none after
  | allocated {evictions : List CachedRasterTextureKey} {middle : RasterRenderer}
      (accepts : refuses config key.cacheId size = false) (missing : self.hasSize key size = none)
      (evicts : evict key.cacheId isProtected
        (exceedsHardLimit config key.cacheId (textureBytes size)) evictions
        (self.removeRasterTexture key false) = some (true, middle)) :
      Prepares config self key size gutter isProtected evictions (some middle.created)
        (middle.insertTextures key.cacheId (textureBytes size) size gutter [(key, ⟨0, 0⟩)])

theorem Prepares.of_eq {key : CachedRasterTextureKey} {size : Size Int} {gutter : Int}
    {texture : Option Nat}
    (prepares : self.prepareRasterTextureFields config key size gutter isProtected evictions =
      some (texture, after)) :
    Prepares config self key size gutter isProtected evictions texture after := by
  rw [prepareRasterTextureFields] at prepares
  by_cases isRefused : refuses config key.cacheId size = true
  · rw [if_pos isRefused] at prepares
    rcases Option.ite_none_right_eq_some.mp prepares with ⟨rfl, same⟩
    rcases Option.some.inj same with ⟨⟩
    exact .refused isRefused
  · rw [if_neg isRefused] at prepares
    rw [Bool.not_eq_true] at isRefused
    cases found : self.hasSize key size with
    | some existing =>
        simp only [found] at prepares
        rcases Option.ite_none_right_eq_some.mp prepares with ⟨rfl, same⟩
        rcases Option.some.inj same with ⟨⟩
        exact .existing isRefused found
    | none =>
        simp only [found] at prepares
        rcases Option.bind_eq_some_iff.mp prepares with ⟨⟨fits, middle⟩, evicts, rest⟩
        cases fits with
        | true =>
            rcases Option.some.inj rest with ⟨⟩
            exact .allocated isRefused found evicts
        | false =>
            rcases Option.some.inj rest with ⟨⟩
            exact .full isRefused found evicts

/-- The tile has to be made for the batch. -/
def enters (self : RasterRenderer) (batch : RasterTargets) (target : RasterBatchTarget) : Bool :=
  !(self.placeOf (batch.textureKey target)).any fun existing =>
    existing.sourceSize = batch.textureSize && existing.gutter = batch.gutter.toNat

variable {batch : RasterTargets} {size : Size Int} {targets : List RasterBatchTarget}

theorem isReady_eq_none_iff {target : RasterBatchTarget} :
    self.isReady batch target = none ↔ self.enters batch target = true := by
  rw [isReady, enters, placeOf]
  cases self.textures.get (batch.textureKey target) with
  | none => simp
  | some existing => simp [Option.filter, CachedRasterTexture.place, imp_iff_not_or]

theorem get_of_isReady {target : RasterBatchTarget} {existing : CachedRasterTexture}
    (ready : self.isReady batch target = some existing) :
    self.textures.get (batch.textureKey target) = some existing :=
  (Option.filter_eq_some_iff.mp ready).1

theorem enters_congr
    (same : ∀ key, after.placeOf key = self.placeOf key) (target : RasterBatchTarget) :
    after.enters batch target = self.enters batch target := by
  rw [enters, enters, same]

/-- Removing a tile that has to be made anyway makes no difference. -/
theorem enters_remove {target : RasterBatchTarget} (makes : self.enters batch target = true)
    (other : RasterBatchTarget) :
    (self.removeRasterTexture (batch.textureKey target) false).enters batch other =
      self.enters batch other := by
  rw [enters, placeOf_remove]
  split
  next same =>
    rw [enters, ← same] at makes
    rw [enters, makes]
    rfl
  next => rw [enters]

/-- A tile stays where it is, or has to be made. -/
theorem placeOf_prepareTargets
    {entries : Option (List (CachedRasterTextureKey × Point Int))}
    (prepares : prepareTargets batch size targets self = (entries, after))
    (key : CachedRasterTextureKey) :
    after.placeOf key = self.placeOf key ∨ after.placeOf key = none ∧
      ∃ target ∈ targets.takeWhile (batch.inPlace size),
        batch.textureKey target = key ∧ self.enters batch target = true := by
  induction targets generalizing self entries with
  | nil =>
      rcases Prod.mk.inj prepares with ⟨_, rfl⟩
      exact Or.inl rfl
  | cons target targets ih =>
      rw [prepareTargets] at prepares
      by_cases inPlace : batch.inPlace size target = true
      · rw [if_pos inPlace] at prepares
        rw [List.takeWhile_cons_of_pos inPlace]
        cases ready : self.isReady batch target with
        | some existing =>
            simp only [ready] at prepares
            have same := placeOf_touch (get_of_isReady ready)
            rcases ih prepares with kept | ⟨gone, other, member, sameKey, makes⟩
            · exact Or.inl (kept.trans (same key))
            · rw [enters_congr same] at makes
              exact Or.inr ⟨gone, other, List.mem_cons_of_mem _ member, sameKey, makes⟩
        | none =>
            simp only [ready] at prepares
            have makes := isReady_eq_none_iff.1 ready
            rcases Prod.mk.inj prepares with ⟨_, afterEq⟩
            rcases ih (Prod.ext rfl afterEq) with kept | ⟨gone, other, member, sameKey, makesOther⟩
            · rw [placeOf_remove] at kept
              split at kept
              next same => exact Or.inr ⟨kept, target, List.mem_cons_self, same.symm, makes⟩
              next => exact Or.inl kept
            · rw [enters_remove makes] at makesOther
              exact Or.inr ⟨gone, other, List.mem_cons_of_mem _ member, sameKey, makesOther⟩
      · rw [if_neg inPlace] at prepares
        rcases Prod.mk.inj prepares with ⟨_, rfl⟩
        exact Or.inl rfl

/-- A tile that is there after the targets are prepared was there before. -/
theorem kept_of_prepareTargets
    {entries : Option (List (CachedRasterTextureKey × Point Int))}
    (prepares : prepareTargets batch size targets self = (entries, after))
    {key : CachedRasterTextureKey} {tile : CachedRasterTexture}
    (found : after.textures.get key = some tile) :
    ∃ old, self.textures.get key = some old ∧ old.place = tile.place := by
  apply exists_of_kept _ found
  rcases placeOf_prepareTargets prepares key with same | ⟨gone, _⟩
  · exact Or.inr same
  · exact Or.inl gone

/-- Tiles that are no targets are left alone. -/
theorem get_prepareTargets
    {entries : Option (List (CachedRasterTextureKey × Point Int))}
    (prepares : prepareTargets batch size targets self = (entries, after))
    {key : CachedRasterTextureKey} (other : ∀ target ∈ targets, batch.textureKey target ≠ key) :
    after.textures.get key = self.textures.get key := by
  induction targets generalizing self entries with
  | nil =>
      rcases Prod.mk.inj prepares with ⟨_, rfl⟩
      rfl
  | cons target targets ih =>
      rw [List.forall_mem_cons] at other
      rw [prepareTargets] at prepares
      split at prepares
      next =>
        cases ready : self.isReady batch target with
        | some existing =>
            simp only [ready] at prepares
            rw [ih prepares other.2, touch]
            exact FiniteMap.get_insert_of_ne _ _ other.1.symm
        | none =>
            simp only [ready] at prepares
            rcases Prod.mk.inj prepares with ⟨_, afterEq⟩
            rw [ih (Prod.ext rfl afterEq) other.2, get_remove, if_neg other.1.symm]
      next =>
        rcases Prod.mk.inj prepares with ⟨_, rfl⟩
        rfl

/-- Only a target out of place keeps the targets from being prepared. -/
theorem prepareTargets_none
    (prepares : prepareTargets batch size targets self = (none, after)) :
    ¬ ∀ target ∈ targets, batch.inPlace size target = true := by
  induction targets generalizing self with
  | nil => cases (Prod.mk.inj prepares).1
  | cons target targets ih =>
      intro placed
      rw [List.forall_mem_cons] at placed
      rw [prepareTargets, if_pos placed.1] at prepares
      cases ready : self.isReady batch target with
      | some existing =>
          simp only [ready] at prepares
          exact ih prepares placed.2
      | none =>
          simp only [ready] at prepares
          rcases Prod.mk.inj prepares with ⟨mapped, afterEq⟩
          exact ih (Prod.ext (Option.map_eq_none_iff.mp mapped) afterEq) placed.2

/-- The entries are the targets that have to be made, and none of them is resident. -/
theorem prepareTargets_some {entries : List (CachedRasterTextureKey × Point Int)}
    (prepares : prepareTargets batch size targets self = (some entries, after)) :
    entries = (targets.filter (self.enters batch)).map
        (fun target => (batch.textureKey target, target.source)) ∧
      (∀ entry ∈ entries, after.textures.get entry.1 = none) ∧
      ∀ target ∈ targets, batch.inPlace size target = true := by
  induction targets generalizing self entries with
  | nil =>
      rcases Prod.mk.inj prepares with ⟨same, rfl⟩
      rcases Option.some.inj same with rfl
      refine ⟨rfl, ?_, ?_⟩
      · intro entry member
        cases member
      · intro target member
        cases member
  | cons target targets ih =>
      rw [prepareTargets] at prepares
      by_cases inPlace : batch.inPlace size target = true
      · rw [if_pos inPlace] at prepares
        cases ready : self.isReady batch target with
        | some existing =>
            simp only [ready] at prepares
            rcases ih prepares with ⟨same, absent, placed⟩
            have stays : ¬ self.enters batch target = true := by
              rw [← isReady_eq_none_iff, ready]
              exact Option.some_ne_none _
            have congr : (self.touch (batch.textureKey target) existing).enters batch =
                self.enters batch :=
              funext fun other => enters_congr (placeOf_touch (get_of_isReady ready)) other
            rw [congr] at same
            rw [List.filter_cons_of_neg stays]
            refine ⟨same, absent, ?_⟩
            intro other member
            rcases List.mem_cons.mp member with rfl | later
            · exact inPlace
            · exact placed other later
        | none =>
            simp only [ready] at prepares
            have makes := isReady_eq_none_iff.1 ready
            rcases Prod.mk.inj prepares with ⟨mapped, afterEq⟩
            rcases Option.map_eq_some_iff.mp mapped with ⟨rest, restEq, rfl⟩
            have prepared : prepareTargets batch size targets
                (self.removeRasterTexture (batch.textureKey target) false) = (some rest, after) :=
              Prod.ext restEq afterEq
            rcases ih prepared with ⟨same, absent, placed⟩
            have congr : (self.removeRasterTexture (batch.textureKey target) false).enters batch =
                self.enters batch :=
              funext (enters_remove makes)
            rw [congr] at same
            rw [List.filter_cons_of_pos makes, List.map_cons, ← same]
            refine ⟨rfl, ?_, ?_⟩
            · intro entry member
              rcases List.mem_cons.mp member with rfl | later
              · rw [← placeOf_eq_none_iff]
                rcases placeOf_prepareTargets prepared (batch.textureKey target) with
                  kept | ⟨gone, _⟩
                · rw [kept, placeOf_remove, if_pos rfl]
                · exact gone
              · exact absent entry later
            · intro other member
              rcases List.mem_cons.mp member with rfl | later
              · exact inPlace
              · exact placed other later
      · rw [if_neg inPlace] at prepares
        cases (Prod.mk.inj prepares).1

/-- What preparing a texture for a batch may do. -/
inductive PreparesBatch (config : UInt64 → RasterCacheConfig) (self : RasterRenderer)
    (batch : RasterTargets) (size : Size Int) (isProtected : Finset CachedRasterTextureKey) :
    List CachedRasterTextureKey → Option PreparedRasterBatchTexture → RasterRenderer → Prop where
  | refused (refuses : refuses config batch.cacheId size = true) :
      PreparesBatch config self batch size isProtected [] none self
  | outOfPlace {after : RasterRenderer} (accepts : refuses config batch.cacheId size = false)
      (prepares : prepareTargets batch size batch.targets self = (none, after)) :
      PreparesBatch config self batch size isProtected [] none after
  | alreadyReady {after : RasterRenderer} (accepts : refuses config batch.cacheId size = false)
      (prepares : prepareTargets batch size batch.targets self = (some [], after)) :
      PreparesBatch config self batch size isProtected [] (some .alreadyReady) after
  | full {evictions : List CachedRasterTextureKey} {middle after : RasterRenderer}
      {entries : List (CachedRasterTextureKey × Point Int)}
      (accepts : refuses config batch.cacheId size = false) (some_ : entries ≠ [])
      (prepares : prepareTargets batch size batch.targets self = (some entries, middle))
      (evicts : evict batch.cacheId isProtected
        (exceedsHardLimit config batch.cacheId (textureBytes size)) evictions middle =
          some (false, after)) :
      PreparesBatch config self batch size isProtected evictions none after
  | allocated {evictions : List CachedRasterTextureKey} {middle evicted : RasterRenderer}
      {entries : List (CachedRasterTextureKey × Point Int)}
      (accepts : refuses config batch.cacheId size = false) (some_ : entries ≠ [])
      (prepares : prepareTargets batch size batch.targets self = (some entries, middle))
      (evicts : evict batch.cacheId isProtected
        (exceedsHardLimit config batch.cacheId (textureBytes size)) evictions middle =
          some (true, evicted)) :
      PreparesBatch config self batch size isProtected evictions
        (some (.allocated evicted.created))
        (evicted.insertTextures batch.cacheId (textureBytes size) batch.textureSize batch.gutter
          entries)

theorem PreparesBatch.of_eq {prepared : Option PreparedRasterBatchTexture}
    (prepares : self.prepareRasterBatchTexture config batch size isProtected evictions =
      some (prepared, after)) :
    PreparesBatch config self batch size isProtected evictions prepared after := by
  rw [prepareRasterBatchTexture] at prepares
  by_cases isRefused : refuses config batch.cacheId size = true
  · rw [if_pos isRefused] at prepares
    rcases Option.ite_none_right_eq_some.mp prepares with ⟨rfl, same⟩
    rcases Option.some.inj same with ⟨⟩
    exact .refused isRefused
  · rw [if_neg isRefused] at prepares
    rw [Bool.not_eq_true] at isRefused
    split at prepares
    next middle targets =>
      rcases Option.ite_none_right_eq_some.mp prepares with ⟨rfl, same⟩
      rcases Option.some.inj same with ⟨⟩
      exact .outOfPlace isRefused targets
    next middle targets =>
      rcases Option.ite_none_right_eq_some.mp prepares with ⟨rfl, same⟩
      rcases Option.some.inj same with ⟨⟩
      exact .alreadyReady isRefused targets
    next entries middle some_ targets =>
      have nonempty : entries ≠ [] := fun none => some_ (by rw [none])
      rcases Option.bind_eq_some_iff.mp prepares with ⟨⟨fits, evicted⟩, evicts, rest⟩
      cases fits with
      | true =>
          rcases Option.some.inj rest with ⟨⟩
          exact .allocated isRefused nonempty targets evicts
      | false =>
          rcases Option.some.inj rest with ⟨⟩
          exact .full isRefused nonempty targets evicts

end RasterRenderer

end Gpui
