import Gpui.RasterCache.Drawing

/-!
# Hits on tiles that were drawn

A tile is entered before it is drawn.  What has been entered for a scene whose encoding
fails was not submitted: another try draws the updates again, but finds the tiles of its
batches ready.  An update that finds its tile in a texture with others clears them all.
-/

namespace Gpui

open Library

/-- The tile is alone in its texture. -/
def RasterRenderer.Own (self : RasterRenderer) (key : CachedRasterTextureKey)
    (texture : CachedRasterTexture) : Prop :=
  texture.sourceOrigin = ⟨0, 0⟩ ∧ ∀ other otherTexture, self.textures.get other = some otherTexture →
    otherTexture.allocation.texture = texture.allocation.texture → other = key

namespace DrawStage

/-- The updates that have not been prepared. -/
def restUpdates : DrawStage → List RasterTileUpdate
  | .prepareUpdate update rest => update :: rest
  | .encodeUpdate _ _ rest => rest
  | _ => []

/-- The tile is in the texture that is encoded next. -/
def Awaits : DrawStage → CachedRasterTexture → Prop
  | .encodeUpdate _ texture _, tile => tile.allocation.texture = texture
  | .encodeBatch _ texture _, tile => tile.allocation.texture = texture
  | _, _ => False

/-- What is encoded next into a texture is what is in it. -/
def Targets (renderer : RasterRenderer) : DrawStage → Prop
  | .encodeUpdate update texture _ => ∀ key tile, renderer.textures.get key = some tile →
      tile.allocation.texture = texture → tile.sourceOrigin = ⟨0, 0⟩ ∧ key = update.textureKey
  | .encodeBatch batch texture _ => ∀ key tile, renderer.textures.get key = some tile →
      tile.allocation.texture = texture → (tile.sourceOrigin, key) ∈ batch.content
  | _ => True

theorem restUpdates_atBatches (rest : List RasterTileUpdateBatch) :
    (RasterScene.atBatches rest).restUpdates = [] := by
  cases rest <;> rfl

theorem targets_atBatches (renderer : RasterRenderer) (rest : List RasterTileUpdateBatch) :
    (RasterScene.atBatches rest).Targets renderer := by
  cases rest <;> exact trivial

theorem restUpdates_atUpdates (scene : RasterScene) (rest : List RasterTileUpdate) :
    (scene.atUpdates rest).restUpdates = rest := by
  cases rest with
  | nil => exact restUpdates_atBatches _
  | cons update rest => rfl

theorem targets_atUpdates (renderer : RasterRenderer) (scene : RasterScene)
    (rest : List RasterTileUpdate) : (scene.atUpdates rest).Targets renderer := by
  cases rest with
  | nil => exact targets_atBatches _ _
  | cons update rest => exact trivial

end DrawStage

/-- Preparing the update finds the tile. -/
def RasterTileUpdate.Matches (config : UInt64 → RasterCacheConfig) (self : RasterTileUpdate)
    (key : CachedRasterTextureKey) (tile : CachedRasterTexture) : Prop :=
  self.textureKey = key ∧ RasterRenderer.refuses config key.cacheId self.textureSize = false ∧
    tile.sourceSize.width.toNat = self.textureSize.width.toNat ∧
    tile.sourceSize.height.toNat = self.textureSize.height.toNat

namespace RasterDrawing

/-- A hit has been drawn, from a target with its key and revision. -/
def Populated (self : RasterDrawing) : Prop :=
  self.scenes = [] → ∀ key gutter, (self.renderer.rasterTileLookup key).1 = .hit gutter →
    ∃ tile, self.renderer.textures.get key = some tile ∧
      (tile.sourceOrigin, key) ∈ self.contents tile.allocation.texture

/-- No tile that a batch has entered is there when an encoding fails, and none at all when it
is given up; an update that finds its tile finds it alone. -/
def Draws (config : UInt64 → RasterCacheConfig) (self : RasterDrawing) : DrawEvent → Prop
  | .prepare _ => ∀ update rest tile, self.stage = some (.prepareUpdate update rest) →
      RasterRenderer.refuses config update.textureKey.cacheId update.textureSize = false →
        self.renderer.hasSize update.textureKey update.textureSize = some tile →
          self.renderer.Own update.textureKey tile
  | .fail giveUp => ∀ key byBatch, self.entered key = some byBatch →
      giveUp = true ∨ byBatch = true → self.renderer.textures.get key = none
  | _ => True

/-! ## What has been drawn so far -/

variable (config : UInt64 → RasterCacheConfig)

/-- Every tile has been drawn, is drawn next, or is drawn when the update comes that it was
entered for.  What has not been submitted was entered for the scene. -/
structure Attempt (drawing : RasterDrawing) (scene : RasterScene) (stage : DrawStage) : Prop where
  tiles : ∀ key tile, drawing.renderer.textures.get key = some tile →
    (tile.sourceOrigin, key) ∈ drawing.encoded tile.allocation.texture ∨ stage.Awaits tile ∨
      ∃ update ∈ stage.restUpdates, update.Matches config key tile
  submitted : ∀ key tile, drawing.renderer.textures.get key = some tile →
    (tile.sourceOrigin, key) ∈ drawing.contents tile.allocation.texture ∨
      ∃ byBatch, drawing.entered key = some byBatch ∧
        (byBatch = false → ∃ update ∈ scene.updates, update.Matches config key tile)
  targets : stage.Targets drawing.renderer
  rest : ∀ update ∈ stage.restUpdates, update ∈ scene.updates

structure Drawn (drawing : RasterDrawing) : Prop where
  sound : drawing.renderer.Sound config
  idle : drawing.stage = none → ∀ key tile, drawing.renderer.textures.get key = some tile →
    (tile.sourceOrigin, key) ∈ drawing.contents tile.allocation.texture
  attempt : ∀ stage, drawing.stage = some stage →
    ∃ scene, drawing.scenes.head? = some scene ∧ drawing.Attempt config scene stage

variable {config}

theorem drawn_new : new.Drawn config where
  sound := RasterRenderer.sound_new
  idle _ key tile found := by cases found
  attempt stage drawing := by cases drawing

variable {self next : RasterDrawing} {renderer : RasterRenderer}


/-- What is known of a tile depends on its place. -/
theorem Attempt.tile {scene : RasterScene} {stage : DrawStage}
    (attempt : self.Attempt config scene stage) {key : CachedRasterTextureKey}
    {old tile : CachedRasterTexture} (found : self.renderer.textures.get key = some old)
    (same : old.place = tile.place) :
    (tile.sourceOrigin, key) ∈ self.encoded tile.allocation.texture ∨ stage.Awaits tile ∨
      ∃ update ∈ stage.restUpdates, update.Matches config key tile := by
  rcases CachedRasterTexture.place_eq_iff.1 same with ⟨allocation, origin, size, _⟩
  rcases attempt.tiles key old found with drawn | awaits | ⟨update, member, matches_⟩
  · rw [allocation, origin] at drawn
    exact Or.inl drawn
  · apply Or.inr (Or.inl _)
    cases stage <;> first | exact awaits | exact (congrArg _ allocation).symm.trans awaits
  · rw [RasterTileUpdate.Matches, size] at matches_
    exact Or.inr (Or.inr ⟨update, member, matches_⟩)

theorem Attempt.submittedTile {scene : RasterScene} {stage : DrawStage}
    (attempt : self.Attempt config scene stage) {key : CachedRasterTextureKey}
    {old tile : CachedRasterTexture} (found : self.renderer.textures.get key = some old)
    (same : old.place = tile.place) :
    (tile.sourceOrigin, key) ∈ self.contents tile.allocation.texture ∨
      ∃ byBatch, self.entered key = some byBatch ∧
        (byBatch = false → ∃ update ∈ scene.updates, update.Matches config key tile) := by
  rcases CachedRasterTexture.place_eq_iff.1 same with ⟨allocation, origin, size, _⟩
  rcases attempt.submitted key old found with drawn | ⟨byBatch, entered, comes⟩
  · rw [allocation, origin] at drawn
    exact Or.inl drawn
  · refine Or.inr ⟨byBatch, entered, ?_⟩
    intro notByBatch
    rcases comes notByBatch with ⟨update, member, matches_⟩
    rw [RasterTileUpdate.Matches, size] at matches_
    exact ⟨update, member, matches_⟩

/-! ## Preparing -/

variable {scene : RasterScene} {update : RasterTileUpdate} {rest : List RasterTileUpdate}
  {evictions : List CachedRasterTextureKey}

/-- A tile that the update does not find is drawn without it. -/
theorem Attempt.without_update
    (attempt : self.Attempt config scene (.prepareUpdate update rest))
    {key : CachedRasterTextureKey} {old tile : CachedRasterTexture}
    (found : self.renderer.textures.get key = some old) (same : old.place = tile.place)
    (differs : ¬ update.Matches config key tile) :
    (tile.sourceOrigin, key) ∈ self.encoded tile.allocation.texture ∨
      ∃ other ∈ rest, other.Matches config key tile := by
  rcases attempt.tile found same with drawn | awaits | ⟨other, member, matches_⟩
  · exact Or.inl drawn
  · cases awaits
  · rcases List.mem_cons.mp member with rfl | later
    · exact absurd matches_ differs
    · exact Or.inr ⟨other, later, matches_⟩

/-- No texture is made or found for the update. -/
theorem Attempt.skipUpdate
    (attempt : self.Attempt config scene (.prepareUpdate update rest))
    (kept : ∀ key tile, renderer.textures.get key = some tile →
      ¬ update.Matches config key tile ∧
        ∃ old, self.renderer.textures.get key = some old ∧ old.place = tile.place) :
    (self.prepared renderer (scene.atUpdates rest) [] false).Attempt config scene
      (scene.atUpdates rest) where
  tiles key tile found := by
    rcases kept key tile found with ⟨differs, old, foundOld, same⟩
    rw [DrawStage.restUpdates_atUpdates]
    rcases attempt.without_update foundOld same differs with drawn | comes
    · exact Or.inl drawn
    · exact Or.inr (Or.inr comes)
  submitted key tile found := by
    rcases kept key tile found with ⟨_, old, foundOld, same⟩
    exact attempt.submittedTile foundOld same
  targets := DrawStage.targets_atUpdates _ _ _
  rest other member := by
    rw [DrawStage.restUpdates_atUpdates] at member
    exact attempt.rest other (List.mem_cons_of_mem _ member)

theorem hasSize_eq_some {size : Size Int} {key : CachedRasterTextureKey}
    {tile : CachedRasterTexture} (found : renderer.hasSize key size = some tile) :
    renderer.textures.get key = some tile ∧
      tile.sourceSize.width.toNat = size.width.toNat ∧
      tile.sourceSize.height.toNat = size.height.toNat := by
  rcases Option.filter_eq_some_iff.mp found with ⟨there, fits⟩
  rw [Bool.and_eq_true, decide_eq_true_eq, decide_eq_true_eq] at fits
  exact ⟨there, fits⟩

/-- The update finds its tile, alone in a texture. -/
theorem Attempt.findUpdate
    (attempt : self.Attempt config scene (.prepareUpdate update rest))
    {tile₀ : CachedRasterTexture}
    (there : self.renderer.textures.get update.textureKey = some tile₀)
    (own : self.renderer.Own update.textureKey tile₀) :
    (self.prepared (self.renderer.touch update.textureKey tile₀)
      (.encodeUpdate update tile₀.allocation.texture rest) [] false).Attempt config scene
        (.encodeUpdate update tile₀.allocation.texture rest) := by
  have stays := RasterRenderer.placeOf_touch there
  constructor
  · intro key tile found
    rcases RasterRenderer.exists_of_placeOf (stays key) found with ⟨old, foundOld, same⟩
    by_cases isIt : key = update.textureKey
    · rw [isIt, there] at foundOld
      rcases Option.some.inj foundOld with rfl
      have allocation := (CachedRasterTexture.place_eq_iff.1 same).1
      exact Or.inr (Or.inl (congrArg _ allocation.symm))
    · rcases attempt.without_update foundOld same fun matches_ => isIt matches_.1.symm with
        drawn | comes
      · exact Or.inl drawn
      · exact Or.inr (Or.inr comes)
  · intro key tile found
    rcases RasterRenderer.exists_of_placeOf (stays key) found with ⟨old, foundOld, same⟩
    exact attempt.submittedTile foundOld same
  · intro key tile found sameTexture
    rcases RasterRenderer.exists_of_placeOf (stays key) found with ⟨old, foundOld, same⟩
    rcases CachedRasterTexture.place_eq_iff.1 same with ⟨allocation, origin, _⟩
    rw [← allocation] at sameTexture
    have isIt := own.2 key old foundOld sameTexture
    rw [isIt, there] at foundOld
    rcases Option.some.inj foundOld with rfl
    exact ⟨origin.symm.trans own.1, isIt⟩
  · exact fun other member => attempt.rest other (List.mem_cons_of_mem _ member)

/-- A texture is made for the update. -/
theorem Attempt.makeUpdate
    (attempt : self.Attempt config scene (.prepareUpdate update rest))
    (made : ∀ {key tile}, renderer.textures.get key = some tile →
      tile.allocation.texture < renderer.created)
    (kept : ∀ key tile, renderer.textures.get key = some tile → key ≠ update.textureKey ∧
      ∃ old, self.renderer.textures.get key = some old ∧ old.place = tile.place)
    (accepts : RasterRenderer.refuses config update.textureKey.cacheId update.textureSize = false)
    (bytes : Nat) :
    (self.prepared (renderer.insertTextures update.textureKey.cacheId bytes update.textureSize
        update.gutter [(update.textureKey, ⟨0, 0⟩)])
      (.encodeUpdate update renderer.created rest) [update.textureKey] false).Attempt config scene
        (.encodeUpdate update renderer.created rest) := by
  -- The tile of the update is new, and the others are old.
  have tiles : ∀ key tile, (renderer.insertTextures update.textureKey.cacheId bytes
      update.textureSize update.gutter [(update.textureKey, ⟨0, 0⟩)]).textures.get key = some tile →
      (key = update.textureKey ∧ tile.allocation.texture = renderer.created ∧
        tile.sourceOrigin = ⟨0, 0⟩ ∧ tile.sourceSize = update.textureSize) ∨
      key ≠ update.textureKey ∧ tile.allocation.texture ≠ renderer.created ∧
        ∃ old, self.renderer.textures.get key = some old ∧ old.place = tile.place := by
    intro key tile found
    have single : ∀ {other}, other ∈ [((update.textureKey, ⟨0, 0⟩) :
        CachedRasterTextureKey × Point Int)].map Prod.fst ↔ other = update.textureKey :=
      List.mem_singleton
    by_cases isIt : key = update.textureKey
    · rcases RasterRenderer.get_insertTextures_of_mem renderer update.textureKey.cacheId bytes
        update.textureSize update.gutter (single.2 isIt) with ⟨origin, member, new⟩
      rw [new] at found
      rcases Option.some.inj found with rfl
      exact Or.inl ⟨isIt, rfl, (Prod.mk.inj (List.mem_singleton.mp member)).2, rfl⟩
    · have stays := RasterRenderer.placeOf_insertTextures_of_not_mem renderer
        update.textureKey.cacheId bytes update.textureSize update.gutter (mt single.1 isIt)
      rcases RasterRenderer.exists_of_placeOf stays found with ⟨middle, foundMiddle, same⟩
      rcases kept key middle foundMiddle with ⟨_, old, foundOld, sameOld⟩
      refine Or.inr ⟨isIt, ?_, old, foundOld, sameOld.trans same⟩
      rw [← (CachedRasterTexture.place_eq_iff.1 same).1]
      exact ne_of_lt (made foundMiddle)
  constructor
  · intro key tile found
    rcases tiles key tile found with ⟨_, new, _⟩ | ⟨isNot, _, old, foundOld, same⟩
    · exact Or.inr (Or.inl new)
    · rcases attempt.without_update foundOld same fun matches_ => isNot matches_.1.symm with
        drawn | comes
      · exact Or.inl drawn
      · exact Or.inr (Or.inr comes)
  · intro key tile found
    rcases tiles key tile found with ⟨isIt, _, _, size⟩ | ⟨isNot, _, old, foundOld, same⟩
    · refine Or.inr ⟨false, ?_, fun _ => ⟨update, attempt.rest update List.mem_cons_self, ?_⟩⟩
      · rw [isIt]
        exact PartialMap.insert_self ..
      · rw [isIt, RasterTileUpdate.Matches, size]
        exact ⟨rfl, accepts, rfl, rfl⟩
    · rcases attempt.submittedTile foundOld same with drawn | ⟨byBatch, entered, comes⟩
      · exact Or.inl drawn
      · refine Or.inr ⟨byBatch, ?_, comes⟩
        exact (PartialMap.insert_of_ne _ _ isNot).trans entered
  · intro key tile found sameTexture
    rcases tiles key tile found with ⟨isIt, _, origin, _⟩ | ⟨_, different, _⟩
    · exact ⟨origin, isIt⟩
    · exact absurd sameTexture different
  · exact fun other member => attempt.rest other (List.mem_cons_of_mem _ member)

theorem Attempt.prepareUpdate
    (attempt : self.Attempt config scene (.prepareUpdate update rest))
    (sound : self.renderer.Sound config)
    (own : ∀ tile, RasterRenderer.refuses config update.textureKey.cacheId
        update.textureSize = false →
      self.renderer.hasSize update.textureKey update.textureSize = some tile →
        self.renderer.Own update.textureKey tile)
    (prepares : self.prepareUpdate config scene update rest evictions = some next) :
    ∃ stage, next.stage = some stage ∧ next.Attempt config scene stage := by
  rcases Option.bind_eq_some_iff.mp prepares with ⟨⟨texture, renderer⟩, prepares, same⟩
  have kept : ∀ {fits : Bool} {after : RasterRenderer},
      RasterRenderer.evict update.textureKey.cacheId scene.isProtected
        (RasterRenderer.exceedsHardLimit config update.textureKey.cacheId
          (textureBytes update.textureSize)) evictions
        (self.renderer.removeRasterTexture update.textureKey false) = some (fits, after) →
      ∀ key tile, after.textures.get key = some tile → key ≠ update.textureKey ∧
        ∃ old, self.renderer.textures.get key = some old ∧ old.place = tile.place := by
    intro fits after evicts key tile found
    rcases RasterRenderer.kept_of_evict evicts found with ⟨middle, foundMiddle, samePlace⟩
    rw [RasterRenderer.get_remove, Option.ite_none_left_eq_some] at foundMiddle
    exact ⟨foundMiddle.1, middle, foundMiddle.2, samePlace⟩
  cases RasterRenderer.Prepares.of_eq prepares with
  | refused refuses =>
      rcases Option.some.inj same with rfl
      refine ⟨_, rfl, attempt.skipUpdate ?_⟩
      intro key tile found
      refine ⟨?_, tile, found, rfl⟩
      rintro ⟨rfl, accepts, _⟩
      cases refuses.symm.trans accepts
  | @existing tile₀ accepts found₀ =>
      have unentered : (if self.renderer.created <
          (self.renderer.touch update.textureKey tile₀).created then [update.textureKey]
          else []) = [] := if_neg (lt_irrefl _)
      simp only [unentered] at same
      rcases Option.some.inj same with rfl
      exact ⟨_, rfl, attempt.findUpdate (hasSize_eq_some found₀).1 (own tile₀ accepts found₀)⟩
  | full _ _ evicts =>
      rcases Option.some.inj same with rfl
      refine ⟨_, rfl, attempt.skipUpdate ?_⟩
      intro key tile found
      rcases kept evicts key tile found with ⟨isNot, old⟩
      exact ⟨fun matches_ => isNot matches_.1.symm, old⟩
  | @allocated _ middle accepts missing evicts =>
      have created : middle.created = self.renderer.created :=
        (RasterRenderer.created_evict evicts).trans (RasterRenderer.created_remove ..)
      have entered : (if self.renderer.created <
          (middle.insertTextures update.textureKey.cacheId (textureBytes update.textureSize)
            update.textureSize update.gutter [(update.textureKey, ⟨0, 0⟩)]).created
          then [update.textureKey] else []) = [update.textureKey] := by
        rw [RasterRenderer.created_insertTextures, created, if_pos (Nat.lt_succ_self _)]
      simp only [entered] at same
      rcases Option.some.inj same with rfl
      have soundMiddle := (sound.remove update.textureKey false).evict evicts
      exact ⟨_, rfl, attempt.makeUpdate soundMiddle.made (kept evicts) accepts _⟩

variable {batch : RasterTileUpdateBatch} {batches : List RasterTileUpdateBatch}

/-- Nothing is drawn, and tiles may have gone, after the updates. -/
theorem Attempt.shrink {stage after : DrawStage} (attempt : self.Attempt config scene stage)
    (noRest : stage.restUpdates = []) (noTexture : ∀ tile, ¬ stage.Awaits tile)
    (restAfter : after.restUpdates = []) (targets : after.Targets renderer)
    (kept : ∀ key tile, renderer.textures.get key = some tile →
      ∃ old, self.renderer.textures.get key = some old ∧ old.place = tile.place)
    (byBatch : Bool) :
    (self.prepared renderer after [] byBatch).Attempt config scene after where
  tiles key tile found := by
    rcases kept key tile found with ⟨old, foundOld, same⟩
    rcases attempt.tile foundOld same with drawn | awaits | ⟨update, member, _⟩
    · exact Or.inl drawn
    · exact absurd awaits (noTexture tile)
    · rw [noRest] at member
      cases member
  submitted key tile found := by
    rcases kept key tile found with ⟨old, foundOld, same⟩
    exact attempt.submittedTile foundOld same
  targets := targets
  rest update member := by
    rw [restAfter] at member
    cases member

/-- A texture is made for the batch. -/
theorem Attempt.makeBatch
    (attempt : self.Attempt config scene (.prepareBatch batch batches))
    (made : ∀ {key tile}, renderer.textures.get key = some tile →
      tile.allocation.texture < renderer.created)
    (kept : ∀ key tile, renderer.textures.get key = some tile →
      ∃ old, self.renderer.textures.get key = some old ∧ old.place = tile.place)
    (bytes : Nat) :
    (self.prepared (renderer.insertTextures batch.cacheId bytes batch.textureSize batch.gutter
        ((batch.targets.filter (self.renderer.enters batch.toRasterTargets)).map fun target =>
          (batch.textureKey target, target.source)))
      (.encodeBatch batch renderer.created batches)
      ((batch.targets.filter (self.renderer.enters batch.toRasterTargets)).map batch.textureKey)
      true).Attempt config scene (.encodeBatch batch renderer.created batches) := by
  -- The entries are new, and the other tiles are old.
  have tiles : ∀ key tile, (renderer.insertTextures batch.cacheId bytes batch.textureSize
      batch.gutter ((batch.targets.filter (self.renderer.enters batch.toRasterTargets)).map
        fun target => (batch.textureKey target, target.source))).textures.get key = some tile →
      (key ∈ (batch.targets.filter (self.renderer.enters batch.toRasterTargets)).map
          batch.textureKey ∧ tile.allocation.texture = renderer.created ∧
        (tile.sourceOrigin, key) ∈ batch.content) ∨
      key ∉ (batch.targets.filter (self.renderer.enters batch.toRasterTargets)).map
          batch.textureKey ∧ tile.allocation.texture ≠ renderer.created ∧
        ∃ old, self.renderer.textures.get key = some old ∧ old.place = tile.place := by
    intro key tile found
    have keys : ((batch.targets.filter (self.renderer.enters batch.toRasterTargets)).map
        fun target => (batch.textureKey target, target.source)).map Prod.fst =
          (batch.targets.filter (self.renderer.enters batch.toRasterTargets)).map
            batch.textureKey := by
      rw [List.map_map]
      rfl
    by_cases isNew : key ∈ (batch.targets.filter
        (self.renderer.enters batch.toRasterTargets)).map batch.textureKey
    · rcases RasterRenderer.get_insertTextures_of_mem renderer batch.cacheId bytes
        batch.textureSize batch.gutter (keys ▸ isNew) with ⟨origin, member, new⟩
      rw [new] at found
      rcases Option.some.inj found with rfl
      rcases List.mem_map.mp member with ⟨target, inTargets, same⟩
      rcases Prod.mk.inj same with ⟨rfl, rfl⟩
      refine Or.inl ⟨isNew, rfl, ?_⟩
      exact List.mem_map.mpr ⟨target, (List.mem_filter.mp inTargets).1, rfl⟩
    · have stays := RasterRenderer.placeOf_insertTextures_of_not_mem renderer batch.cacheId bytes
        batch.textureSize batch.gutter (keys ▸ isNew)
      rcases RasterRenderer.exists_of_placeOf stays found with ⟨middle, foundMiddle, same⟩
      rcases kept key middle foundMiddle with ⟨old, foundOld, sameOld⟩
      refine Or.inr ⟨isNew, ?_, old, foundOld, sameOld.trans same⟩
      rw [← (CachedRasterTexture.place_eq_iff.1 same).1]
      exact ne_of_lt (made foundMiddle)
  constructor
  · intro key tile found
    rcases tiles key tile found with ⟨_, new, _⟩ | ⟨_, _, old, foundOld, same⟩
    · exact Or.inr (Or.inl new)
    · rcases attempt.tile foundOld same with drawn | awaits | ⟨update, member, _⟩
      · exact Or.inl drawn
      · cases awaits
      · cases member
  · intro key tile found
    rcases tiles key tile found with ⟨isNew, _⟩ | ⟨isOld, _, old, foundOld, same⟩
    · refine Or.inr ⟨true, ?_, Bool.noConfusion⟩
      exact (PartialMap.foldl_insert ..).trans (if_pos isNew)
    · rcases attempt.submittedTile foundOld same with drawn | ⟨byBatch, entered, comes⟩
      · exact Or.inl drawn
      · refine Or.inr ⟨byBatch, ?_, comes⟩
        exact (PartialMap.foldl_insert ..).trans ((if_neg isOld).trans entered)
  · intro key tile found sameTexture
    rcases tiles key tile found with ⟨_, _, drawn⟩ | ⟨_, different, _⟩
    · exact drawn
    · exact absurd sameTexture different
  · intro update member
    cases member

theorem Attempt.prepareBatch
    (attempt : self.Attempt config scene (.prepareBatch batch batches))
    (sound : self.renderer.Sound config)
    (prepares : self.prepareBatch config scene batch batches evictions = some next) :
    ∃ stage, next.stage = some stage ∧ next.Attempt config scene stage := by
  rcases Option.bind_eq_some_iff.mp prepares with ⟨⟨prepared, renderer⟩, prepares, same⟩
  have skip : (∀ key tile, renderer.textures.get key = some tile →
      ∃ old, self.renderer.textures.get key = some old ∧ old.place = tile.place) →
      (self.prepared renderer (RasterScene.atBatches batches) [] true).Attempt config scene
        (RasterScene.atBatches batches) := by
    intro kept
    apply attempt.shrink rfl (fun _ => id)
    · exact DrawStage.restUpdates_atBatches _
    · exact DrawStage.targets_atBatches _ _
    · exact kept
  cases RasterRenderer.PreparesBatch.of_eq prepares with
  | refused _ =>
      rcases Option.some.inj same with rfl
      exact ⟨_, rfl, skip fun key tile found => ⟨tile, found, rfl⟩⟩
  | outOfPlace _ targets =>
      rcases Option.some.inj same with rfl
      exact ⟨_, rfl, skip fun key tile => RasterRenderer.kept_of_prepareTargets targets⟩
  | alreadyReady _ targets =>
      rcases Option.some.inj same with rfl
      exact ⟨_, rfl, skip fun key tile => RasterRenderer.kept_of_prepareTargets targets⟩
  | full _ _ targets evicts =>
      rcases Option.some.inj same with rfl
      refine ⟨_, rfl, skip ?_⟩
      intro key tile found
      rcases RasterRenderer.kept_of_evict evicts found with ⟨middle, foundMiddle, samePlace⟩
      rcases RasterRenderer.kept_of_prepareTargets targets foundMiddle with ⟨old, foundOld, sameOld⟩
      exact ⟨old, foundOld, sameOld.trans samePlace⟩
  | @allocated _ middle evicted entries accepts _ targets evicts =>
      rcases Option.some.inj same with rfl
      have soundMiddle := sound.prepareTargets batch.toRasterTargets batch.size batch.targets
      rw [targets] at soundMiddle
      rw [(RasterRenderer.prepareTargets_some targets).1]
      refine ⟨_, rfl, attempt.makeBatch (soundMiddle.evict evicts).made ?_ _⟩
      intro key tile found
      rcases RasterRenderer.kept_of_evict evicts found with ⟨before, foundBefore, samePlace⟩
      rcases RasterRenderer.kept_of_prepareTargets targets foundBefore with ⟨old, foundOld, sameOld⟩
      exact ⟨old, foundOld, sameOld.trans samePlace⟩

/-! ## Encoding and evicting -/

/-- What is in a texture is encoded into it. -/
theorem Attempt.encodeInto {stage after : DrawStage} {texture : Nat} {content : TextureContent}
    (attempt : self.Attempt config scene stage)
    (awaits : ∀ tile, stage.Awaits tile → tile.allocation.texture = texture)
    (drawn : ∀ key tile, self.renderer.textures.get key = some tile →
      tile.allocation.texture = texture → (tile.sourceOrigin, key) ∈ content)
    (rest : after.restUpdates = stage.restUpdates) (targets : after.Targets self.renderer) :
    (self.encodeInto texture content after).Attempt config scene after where
  tiles key tile found := by
    simp only [RasterDrawing.encodeInto]
    by_cases here : tile.allocation.texture = texture
    · rw [here, Function.update_self]
      exact Or.inl (drawn key tile found here)
    · rw [Function.update_of_ne here, rest]
      rcases attempt.tiles key tile found with encoded | awaited | comes
      · exact Or.inl encoded
      · exact absurd (awaits tile awaited) here
      · exact Or.inr (Or.inr comes)
  submitted := attempt.submitted
  targets := targets
  rest update member := by
    rw [rest] at member
    exact attempt.rest update member

theorem Attempt.encode {stage : DrawStage} (attempt : self.Attempt config scene stage)
    (drawing : self.stage = some stage) (isScene : self.scenes.head? = some scene)
    (encodes : self.encode = some next) :
    ∃ after, next.stage = some after ∧ next.Attempt config scene after := by
  rw [RasterDrawing.encode, isScene, drawing] at encodes
  cases stage with
  | encodeUpdate update texture rest =>
      rcases Option.some.inj encodes with rfl
      refine ⟨_, rfl, attempt.encodeInto (fun _ => id) ?_ ?_ (DrawStage.targets_atUpdates _ _ _)⟩
      · intro key tile found here
        rcases attempt.targets key tile found here with ⟨origin, isIt⟩
        rw [origin, isIt]
        exact List.mem_singleton_self _
      · exact DrawStage.restUpdates_atUpdates _ _
  | encodeBatch batch texture rest =>
      rcases Option.some.inj encodes with rfl
      refine ⟨_, rfl, attempt.encodeInto (fun _ => id) attempt.targets ?_
        (DrawStage.targets_atBatches _ _)⟩
      exact DrawStage.restUpdates_atBatches _
  | prepareUpdate update rest => cases encodes
  | prepareBatch batch rest => cases encodes
  | evictOffscreen => cases encodes
  | encodeScene => cases encodes

theorem encode_eq (encodes : self.encode = some next) :
    next.renderer = self.renderer ∧ next.scenes = self.scenes := by
  rcases Option.bind_eq_some_iff.mp encodes with ⟨scene, _, encodes⟩
  split at encodes
  next =>
    rcases Option.some.inj encodes with rfl
    exact ⟨rfl, rfl⟩
  next =>
    rcases Option.some.inj encodes with rfl
    exact ⟨rfl, rfl⟩
  next => cases encodes

/-- What preparing an update does. -/
theorem prepareUpdate_eq (prepared : self.prepareUpdate config scene update rest evictions =
      some next) :
    ∃ texture, self.renderer.prepareRasterTextureFields config update.textureKey
        update.textureSize update.gutter scene.isProtected evictions =
          some (texture, next.renderer) ∧
      next.stage = some (texture.elim (scene.atUpdates rest) fun texture =>
        .encodeUpdate update texture rest) ∧
      next.scenes = self.scenes ∧ next.hits = self.hits := by
  rcases Option.bind_eq_some_iff.mp prepared with ⟨⟨texture, renderer⟩, prepares, same⟩
  cases texture with
  | none =>
      rcases Option.some.inj same with rfl
      exact ⟨_, prepares, rfl, rfl, rfl⟩
  | some texture =>
      rcases Option.some.inj same with rfl
      exact ⟨_, prepares, rfl, rfl, rfl⟩

theorem prepareBatch_eq (prepared : self.prepareBatch config scene batch batches evictions =
      some next) :
    ∃ texture, self.renderer.prepareRasterBatchTexture config batch.toRasterTargets batch.size
        scene.isProtected evictions = some (texture, next.renderer) ∧
      (next.stage = some (RasterScene.atBatches batches) ∨
        ∃ allocated, texture = some (.allocated allocated) ∧
          next.stage = some (.encodeBatch batch allocated batches)) ∧
      next.scenes = self.scenes ∧ next.hits = self.hits := by
  rcases Option.bind_eq_some_iff.mp prepared with ⟨⟨texture, renderer⟩, prepares, same⟩
  cases texture with
  | none =>
      rcases Option.some.inj same with rfl
      exact ⟨_, prepares, Or.inl rfl, rfl, rfl⟩
  | some texture =>
      cases texture with
      | allocated texture =>
          rcases Option.some.inj same with rfl
          exact ⟨_, prepares, Or.inr ⟨texture, rfl, rfl⟩, rfl, rfl⟩
      | alreadyReady =>
          rcases Option.some.inj same with rfl
          exact ⟨_, prepares, Or.inl rfl, rfl, rfl⟩

/-- Sweeping the caches leaves the tiles where they are, or drops them. -/
theorem kept_of_sweep {isProtected : Finset CachedRasterTextureKey}
    {sweeps : List (UInt64 × List CachedRasterTextureKey)} {self after : RasterRenderer}
    (evicts : sweeps.foldlM (fun (renderer : RasterRenderer) entry =>
      renderer.evictOffscreen config entry.1 isProtected entry.2) self = some after)
    {key : CachedRasterTextureKey} {tile : CachedRasterTexture}
    (found : after.textures.get key = some tile) :
    ∃ old, self.textures.get key = some old ∧ old.place = tile.place := by
  induction sweeps generalizing self with
  | nil =>
      rcases Option.some.inj evicts with rfl
      exact ⟨tile, found, rfl⟩
  | cons entry sweeps ih =>
      rw [List.foldlM_cons] at evicts
      rcases Option.bind_eq_some_iff.mp evicts with ⟨middle, first, rest⟩
      rcases Option.map_eq_some_iff.mp first with ⟨⟨fits, swept⟩, evicts, rfl⟩
      rcases ih rest with ⟨between, foundBetween, same⟩
      rcases RasterRenderer.kept_of_evict evicts foundBetween with ⟨old, foundOld, sameOld⟩
      exact ⟨old, foundOld, sameOld.trans same⟩

theorem sound_of_sweep {isProtected : Finset CachedRasterTextureKey}
    {sweeps : List (UInt64 × List CachedRasterTextureKey)} {self after : RasterRenderer}
    (sound : self.Sound config)
    (evicts : sweeps.foldlM (fun (renderer : RasterRenderer) entry =>
      renderer.evictOffscreen config entry.1 isProtected entry.2) self = some after) :
    after.Sound config := by
  induction sweeps generalizing self with
  | nil =>
      rcases Option.some.inj evicts with rfl
      exact sound
  | cons entry sweeps ih =>
      rw [List.foldlM_cons] at evicts
      rcases Option.bind_eq_some_iff.mp evicts with ⟨middle, first, rest⟩
      rcases Option.map_eq_some_iff.mp first with ⟨⟨fits, swept⟩, evicts, rfl⟩
      exact ih (sound.evict evicts) rest

/-! ## Runs -/

theorem Drawn.idle_of_no_scenes (drawn : self.Drawn config) (empty : self.scenes = []) :
    self.stage = none := by
  cases drawing : self.stage with
  | none => rfl
  | some stage =>
      rcases drawn.attempt stage drawing with ⟨scene, isScene, _⟩
      rw [empty] at isScene
      cases isScene

theorem Drawn.attemptOf (drawn : self.Drawn config) {stage : DrawStage}
    (drawing : self.stage = some stage) (isScene : self.scenes.head? = some scene) :
    self.Attempt config scene stage := by
  rcases drawn.attempt stage drawing with ⟨first, isFirst, attempt⟩
  rcases Option.some.inj (isFirst.symm.trans isScene) with rfl
  exact attempt

theorem Drawn.of_attempt (sound : next.renderer.Sound config)
    (isScene : next.scenes.head? = some scene)
    (attempt : ∃ stage, next.stage = some stage ∧ next.Attempt config scene stage) :
    next.Drawn config where
  sound := sound
  idle isIdle := by
    rcases attempt with ⟨stage, drawing, _⟩
    rw [isIdle] at drawing
    cases drawing
  attempt stage drawing := by
    rcases attempt with ⟨other, drawingOther, attempt⟩
    rcases Option.some.inj (drawingOther.symm.trans drawing) with rfl
    exact ⟨scene, isScene, attempt⟩

/-- Nothing is being drawn, and the tiles are as they were. -/
theorem Drawn.of_idle (drawn : self.Drawn config) (wasIdle : self.stage = none)
    (isIdle : next.stage = none) (sound : next.renderer.Sound config)
    (contents : next.contents = self.contents)
    (kept : ∀ key tile, next.renderer.textures.get key = some tile →
      ∃ old, self.renderer.textures.get key = some old ∧ old.place = tile.place) :
    next.Drawn config where
  sound := sound
  idle _ key tile found := by
    rcases kept key tile found with ⟨old, foundOld, same⟩
    rcases CachedRasterTexture.place_eq_iff.1 same with ⟨allocation, origin, _⟩
    rw [contents, ← allocation, ← origin]
    exact drawn.idle wasIdle key old foundOld
  attempt stage drawing := by
    rw [isIdle] at drawing
    cases drawing

theorem kept_of_lookup {self : RasterRenderer} {looked key : CachedRasterTextureKey}
    {tile : CachedRasterTexture} (found : (self.rasterTileLookup looked).2.textures.get key = some tile) :
    ∃ old, self.textures.get key = some old ∧ old.place = tile.place := by
  rw [RasterRenderer.rasterTileLookup] at found
  cases there : self.pruneReleasedRasterCaches.textures.get looked with
  | none =>
      simp only [there] at found
      exact ⟨tile, (FiniteMap.get_retain_eq_some_iff.1 found).2, rfl⟩
  | some hit =>
      simp only [there] at found
      have stays := RasterRenderer.placeOf_touch there key
      rcases RasterRenderer.exists_of_placeOf stays found with ⟨old, foundOld, same⟩
      exact ⟨old, (FiniteMap.get_retain_eq_some_iff.1 foundOld).2, same⟩

/-- The scene is left when all that is there has been submitted. -/
theorem Drawn.leaveScene (sound : self.renderer.Sound config)
    (drawn : ∀ key tile, self.renderer.textures.get key = some tile →
      (tile.sourceOrigin, key) ∈ self.contents tile.allocation.texture) :
    self.leaveScene.Drawn config where
  sound := sound
  idle _ := drawn
  attempt stage drawing := by cases drawing

/-- All updates come again, and all batches. -/
theorem Attempt.retry {stage : DrawStage} (attempt : self.Attempt config scene stage)
    (noBatch : ∀ key, self.entered key = some true → self.renderer.textures.get key = none) :
    Attempt config { self with
        stage := some (scene.atUpdates scene.updates), encoded := self.contents } scene
      (scene.atUpdates scene.updates) where
  tiles key tile found := by
    rw [DrawStage.restUpdates_atUpdates]
    rcases attempt.submitted key tile found with drawn | ⟨byBatch, entered, comes⟩
    · exact Or.inl drawn
    · cases byBatch with
      | true =>
          cases (noBatch key entered).symm.trans found
      | false => exact Or.inr (Or.inr (comes rfl))
  submitted := attempt.submitted
  targets := DrawStage.targets_atUpdates _ _ _
  rest update member := by
    rw [DrawStage.restUpdates_atUpdates] at member
    exact member

theorem Drawn.step (drawn : self.Drawn config) {event : DrawEvent}
    (draws : self.Draws config event) (steps : self.step config event = some next) :
    next.Drawn config := by
  cases event with
  | lookup key =>
      rcases Option.ite_none_right_eq_some.mp steps with ⟨empty, same⟩
      rcases Option.some.inj same with rfl
      have idle := drawn.idle_of_no_scenes empty
      exact drawn.of_idle idle idle (drawn.sound.lookup key) rfl fun _ _ => kept_of_lookup
  | release cacheId =>
      rcases Option.ite_none_right_eq_some.mp steps with ⟨empty, same⟩
      rcases Option.some.inj same with rfl
      have idle := drawn.idle_of_no_scenes empty
      refine drawn.of_idle idle idle (drawn.sound.release cacheId) rfl ?_
      intro key tile found
      exact ⟨tile, (FiniteMap.get_retain_eq_some_iff.1 found).2, rfl⟩
  | dropOwner cacheId =>
      rcases Option.ite_none_right_eq_some.mp steps with ⟨empty, same⟩
      rcases Option.some.inj same with rfl
      have idle := drawn.idle_of_no_scenes empty
      exact drawn.of_idle idle idle (drawn.sound.dropOwner cacheId) rfl
        fun key tile found => ⟨tile, found, rfl⟩
  | draw scenes =>
      rcases Option.ite_none_right_eq_some.mp steps with ⟨empty, same⟩
      rcases Option.some.inj same with rfl
      have idle := drawn.idle_of_no_scenes empty
      refine drawn.of_idle idle idle ?_ rfl fun key tile found => ⟨tile, found, rfl⟩
      apply drawn.sound.congr_places
      · exact fun _ => rfl
      · rfl
      · rfl
  | skip =>
      rcases Option.ite_none_right_eq_some.mp steps with ⟨⟨_, idle⟩, same⟩
      rcases Option.some.inj same with rfl
      exact .leaveScene drawn.sound (drawn.idle (Option.isNone_iff_eq_none.mp idle))
  | begin_ =>
      rcases Option.bind_eq_some_iff.mp steps with ⟨scene, isScene, steps⟩
      rcases Option.ite_none_right_eq_some.mp steps with ⟨idle, same⟩
      rcases Option.some.inj same with rfl
      have submitted := drawn.idle (Option.isNone_iff_eq_none.mp idle)
      constructor
      · exact drawn.sound
      · intro noStage
        cases noStage
      · intro stage drawing
        rcases Option.some.inj drawing with rfl
        refine ⟨scene, isScene, ?_⟩
        constructor
        · exact fun key tile found => Or.inl (submitted key tile found)
        · exact fun key tile found => Or.inl (submitted key tile found)
        · exact DrawStage.targets_atUpdates _ _ _
        · intro update member
          rw [DrawStage.restUpdates_atUpdates] at member
          exact member
  | prepare evictions =>
      rcases Option.bind_eq_some_iff.mp steps with ⟨scene, isScene, steps⟩
      cases drawing : self.stage with
      | none =>
          rw [drawing] at steps
          cases steps
      | some stage =>
          rw [drawing] at steps
          have attempt := drawn.attemptOf drawing isScene
          cases stage with
          | prepareUpdate update rest =>
              rcases prepareUpdate_eq steps with ⟨_, prepares, _, scenes, _⟩
              apply Drawn.of_attempt ((RasterRenderer.Prepares.of_eq prepares).sound drawn.sound)
                (scenes ▸ isScene)
              apply attempt.prepareUpdate drawn.sound _ steps
              exact fun tile => draws update rest tile drawing
          | prepareBatch batch rest =>
              rcases prepareBatch_eq steps with ⟨_, prepares, _, scenes, _⟩
              apply Drawn.of_attempt
                ((RasterRenderer.PreparesBatch.of_eq prepares).sound drawn.sound)
                (scenes ▸ isScene)
              exact attempt.prepareBatch drawn.sound steps
          | encodeUpdate update texture rest => cases steps
          | encodeBatch batch texture rest => cases steps
          | evictOffscreen => cases steps
          | encodeScene => cases steps
  | encode =>
      rcases Option.bind_eq_some_iff.mp steps with ⟨scene, isScene, encodes⟩
      cases drawing : self.stage with
      | none =>
          rw [drawing] at encodes
          cases encodes
      | some stage =>
          have attempt := (drawn.attemptOf drawing isScene).encode drawing isScene steps
          rcases encode_eq steps with ⟨renderer, scenes⟩
          exact .of_attempt (renderer ▸ drawn.sound) (scenes ▸ isScene) attempt
  | fail giveUp =>
      rcases Option.bind_eq_some_iff.mp steps with ⟨scene, isScene, steps⟩
      rcases Option.bind_eq_some_iff.mp steps with ⟨stage, drawing, steps⟩
      rcases Option.ite_none_right_eq_some.mp steps with ⟨_, steps⟩
      have attempt := drawn.attemptOf drawing isScene
      cases giveUp with
      | true =>
          rcases Option.some.inj steps with rfl
          apply Drawn.leaveScene drawn.sound
          intro key tile found
          rcases attempt.submitted key tile found with submitted | ⟨byBatch, entered, _⟩
          · exact submitted
          · cases (draws key byBatch entered (Or.inl rfl)).symm.trans found
      | false =>
          rcases Option.some.inj steps with rfl
          refine .of_attempt drawn.sound isScene ⟨_, rfl, attempt.retry ?_⟩
          exact fun key entered => draws key true entered (Or.inr rfl)
  | evictOffscreen evictions =>
      rcases Option.bind_eq_some_iff.mp steps with ⟨scene, isScene, steps⟩
      split at steps
      next drawing =>
        rcases Option.ite_none_right_eq_some.mp steps with ⟨_, steps⟩
        rcases Option.bind_eq_some_iff.mp steps with ⟨renderer, evicts, same⟩
        rcases Option.some.inj same with rfl
        refine .of_attempt (sound_of_sweep drawn.sound evicts) isScene ⟨_, rfl, ?_⟩
        apply (drawn.attemptOf drawing isScene).shrink
        · rfl
        · exact fun _ => id
        · rfl
        · exact trivial
        · exact fun key tile => kept_of_sweep evicts
        · exact false
      next => cases steps
  | submit =>
      rw [RasterDrawing.step] at steps
      split at steps
      next drawing =>
        rcases Option.ite_none_left_eq_some.mp steps with ⟨_, same⟩
        rcases Option.some.inj same with rfl
        rcases drawn.attempt _ drawing with ⟨scene, _, attempt⟩
        refine Drawn.leaveScene drawn.sound ?_
        intro key tile found
        rcases attempt.tiles key tile found with encoded | awaits | ⟨update, member, _⟩
        · exact encoded
        · cases awaits
        · cases member
      next => cases steps

theorem Drawn.populated (drawn : self.Drawn config) : self.Populated := by
  intro empty key gutter hit
  rw [RasterRenderer.rasterTileLookup] at hit
  cases there : self.renderer.pruneReleasedRasterCaches.textures.get key with
  | none =>
      simp only [there] at hit
      cases hit
  | some tile =>
      have found := (FiniteMap.get_retain_eq_some_iff.1 there).2
      exact ⟨tile, found, drawn.idle (drawn.idle_of_no_scenes empty) key tile found⟩

/-- A scene that draws one tile, by a batch. -/
def batchedScene : RasterScene where
  tiles := ∅
  updates := []
  batches := [{ RasterRenderer.repeatedBatch 1 with size := ⟨8, 8⟩, tiles := ∅ }]

end RasterDrawing

end Gpui
