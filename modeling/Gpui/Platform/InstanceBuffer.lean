import Gpui.Library.DryRun
import Gpui.Scene.Completeness
import Gpui.Scene.VectorReplay

/-!
# Room for the instances of a scene

Before a frame is drawn, the size of its instance buffer is computed by a dry run over the
batches of its scenes.  The encoders go over the same batches, align each offset, and check
it against the size of the buffer they were given.  They may skip tiles and whole scenes, so
that their offsets are behind those of the dry run.

Every buffer that is acquired has the size of the pool, which stays the same as long as no
check fails.  Viewports are positive, so that there are textures for paths; the bytes of what
is in memory do not overflow.  A failing check is `none`.
-/

namespace Gpui

open Library

/-- `size_of` of what is written into an instance buffer. -/
structure InstanceSizes where
  shadow : ℕ+
  quad : ℕ+
  pathRasterizationVertex : ℕ+
  pathSprite : ℕ+
  underline : ℕ+
  monochromeSprite : ℕ+
  polychromeSprite : ℕ+
  surface : ℕ+
  rasterTileBounds : ℕ+

structure InstanceBufferPool where
  bufferSize : Nat

/-- `size` of the instance buffer that is acquired. -/
def InstanceBufferPool.acquire (self : InstanceBufferPool) : Nat :=
  self.bufferSize

structure RenderedTarget (K : Type) where
  key : UInt64
  revision : UInt64
  sourceBounds : Bounds K

/-- What `draw_primitives` reads of a `RasterTileUpdateBatch` to encode it. -/
structure RenderedBatch (K : Type) where
  cacheId : UInt64
  targets : List (RenderedTarget K)
  scene : Scene K
  deferred : Bool
  verify : Bool

/-- A scene with its tile updates, their batches and its compositor surfaces. -/
structure RenderedScene (K : Type) where
  scene : Scene K
  updates : List (Scene K)
  batches : List (RenderedBatch K)
  surfaces : List (RenderedScene K)

/-- Which updates and batches there is a texture to draw for, and which tiles are resident
while their scenes and the scene itself are encoded. -/
structure Residency (K : Type) where
  update : Nat → Option (RasterTile K → Bool)
  batch : Nat → Option (RasterTile K → Bool)
  scene : RasterTile K → Bool

def alignOffset (offset : Nat) : Nat :=
  (offset + 255) / 256 * 256

variable {K : Type}

/-- The vertices of a path. -/
def Primitive.vertices : Primitive K → List (PathVertex K)
  | .path item => item.vertices
  | _ => []

/-- `self.raster_textures.get(..)` finds the tile. -/
def Primitive.isResident (resident : RasterTile K → Bool) : Primitive K → Bool
  | .rasterTile item => resident item
  | _ => false

/-- The sprites that paths are copied with: one for each path, if all have the same order. -/
def spriteCount (paths : List (Primitive K)) : Nat :=
  match paths.head?, paths.getLast? with
  | some first, some last => if last.order = first.order then paths.length else 1
  | _, _ => 0

namespace InstanceSizes

variable (self : InstanceSizes)

/-! ## The dry run -/

def reserve (offset bytes : Nat) : Nat :=
  if bytes = 0 then offset else alignOffset offset + bytes

def visitPaths (paths : List (Primitive K)) (offset : Nat) : Nat :=
  let offset := paths.foldl (fun offset path =>
    reserve offset (path.vertices.length * self.pathRasterizationVertex)) offset
  reserve offset (spriteCount paths * self.pathSprite)

def visitBatch (batch : PrimitiveBatch K) (offset : Nat) : Nat :=
  let values := batch.primitives
  match batch.kind with
  | .shadow => reserve offset (values.length * self.shadow)
  | .quad => reserve offset (values.length * self.quad)
  | .path => self.visitPaths values offset
  | .underline => reserve offset (values.length * self.underline)
  | .monochromeSprite => reserve offset (values.length * self.monochromeSprite)
  | .polychromeSprite => reserve offset (values.length * self.polychromeSprite)
  | .surface => values.foldl (fun offset _ => reserve offset self.surface) offset
  | .rasterTile => values.foldl (fun offset _ => reserve offset self.rasterTileBounds) offset

def visit (scene : Scene K) (offset : Nat) : Nat :=
  scene.batches.foldl (fun offset batch => self.visitBatch batch offset) offset

/-- What a deferred batch requires of its own buffer. -/
def batchRequired (batch : RenderedBatch K) : Nat :=
  let required := self.visit batch.scene 0
  if batch.verify then
    batch.targets.foldl (fun offset _ => reserve offset self.rasterTileBounds) required
  else required

def requiredInstanceBufferSize (scene : RenderedScene K) : Nat :=
  let required := scene.updates.foldl (fun offset update => self.visit update offset) 0
  let required := (scene.batches.filter fun batch => !batch.deferred).foldl
    (fun offset batch => self.visit batch.scene offset) required
  let required := self.visit scene.scene required
  let deferredRequired :=
    ((scene.batches.filter RenderedBatch.deferred).map self.batchRequired).max?.getD 0
  let compositorRequired := (scene.surfaces.map requiredInstanceBufferSize).max?.getD 0
  max (max required deferredRequired) compositorRequired
termination_by sizeOf scene
decreasing_by
  have smaller := List.sizeOf_lt_of_mem ‹_ ∈ _›
  cases scene
  dsimp only at smaller
  rw [RenderedScene.mk.sizeOf_spec]
  omega

/-! ## The encoders -/

/-- The instances end within the buffer. -/
def checked (size next : Nat) : Option Nat :=
  if next > size then none else some next

/-- One write of as many instances, unless there are none. -/
def drawInstances (instanceSize : ℕ+) (size count offset : Nat) : Option Nat :=
  if count = 0 then some offset else checked size (alignOffset offset + count * instanceSize)

def drawShadows (size : Nat) (shadows : List (Primitive K)) (offset : Nat) : Option Nat :=
  drawInstances self.shadow size shadows.length offset

def drawQuads (size : Nat) (quads : List (Primitive K)) (offset : Nat) : Option Nat :=
  drawInstances self.quad size quads.length offset

def drawUnderlines (size : Nat) (underlines : List (Primitive K)) (offset : Nat) : Option Nat :=
  drawInstances self.underline size underlines.length offset

def drawMonochromeSprites (size : Nat) (sprites : List (Primitive K)) (offset : Nat) :
    Option Nat :=
  drawInstances self.monochromeSprite size sprites.length offset

def drawPolychromeSprites (size : Nat) (sprites : List (Primitive K)) (offset : Nat) :
    Option Nat :=
  drawInstances self.polychromeSprite size sprites.length offset

/-- The vertices of every path; a path without any moves the offset all the same. -/
def drawPathsToIntermediate (size : Nat) (paths : List (Primitive K)) (offset : Nat) :
    Option Nat :=
  paths.foldlM (fun offset path =>
    checked size (alignOffset offset + path.vertices.length * self.pathRasterizationVertex)) offset

def drawPathsFromIntermediate (size : Nat) (paths : List (Primitive K)) (offset : Nat) :
    Option Nat :=
  if paths = [] then some offset
  else checked size (alignOffset offset + spriteCount paths * self.pathSprite)

def drawSurfaces (size : Nat) (surfaces : List (Primitive K)) (offset : Nat) : Option Nat :=
  surfaces.foldlM (fun offset _ => checked size (alignOffset offset + self.surface)) offset

def drawRasterTiles (resident : RasterTile K → Bool) (size : Nat) (tiles : List (Primitive K))
    (offset : Nat) : Option Nat :=
  tiles.foldlM (fun offset tile =>
    if tile.isResident resident then checked size (alignOffset offset + self.rasterTileBounds)
    else some offset) offset

def drawBatch (resident : RasterTile K → Bool) (size : Nat) (batch : PrimitiveBatch K)
    (offset : Nat) : Option Nat :=
  let values := batch.primitives
  match batch.kind with
  | .shadow => self.drawShadows size values offset
  | .quad => self.drawQuads size values offset
  | .path => do
      let offset ← self.drawPathsToIntermediate size values offset
      self.drawPathsFromIntermediate size values offset
  | .underline => self.drawUnderlines size values offset
  | .monochromeSprite => self.drawMonochromeSprites size values offset
  | .polychromeSprite => self.drawPolychromeSprites size values offset
  | .surface => self.drawSurfaces size values offset
  | .rasterTile => self.drawRasterTiles resident size values offset

def encodeScene (resident : RasterTile K → Bool) (size : Nat) (scene : Scene K) (offset : Nat) :
    Option Nat :=
  scene.batches.foldlM (fun offset batch => self.drawBatch resident size batch offset) offset

def encodeUpdate (residency : Residency K) (size offset : Nat) (entry : Scene K × Nat) :
    Option Nat :=
  match residency.update entry.2 with
  | none => some offset
  | some resident => self.encodeScene resident size entry.1 offset

section Drawing

variable [Field K] [LinearOrder K]

/-- The scene that a verified batch is compared with: its targets, as cached tiles. -/
def candidateScene (batch : RenderedBatch K) : Option (Scene K) := do
  let scene ← batch.targets.foldlM (fun (scene : Scene K) target =>
    scene.insertPrimitive (.rasterTile
      { order := 0
        bounds := target.sourceBounds
        contentMask := ⟨target.sourceBounds⟩
        cacheId := batch.cacheId
        key := target.key
        revision := target.revision })) .empty
  return scene.finish

/-- A deferred batch, in a buffer of its own. -/
def encodeDeferred (resident : RasterTile K → Bool) (size : Nat) (batch : RenderedBatch K) :
    Option Nat := do
  let offset ← self.encodeScene resident size batch.scene 0
  if batch.verify then
    let candidate ← candidateScene batch
    self.encodeScene resident size candidate offset
  else return offset

def encodeBatch (residency : Residency K) (pool : InstanceBufferPool) (size offset : Nat)
    (entry : RenderedBatch K × Nat) : Option Nat :=
  match residency.batch entry.2 with
  | none => some offset
  | some resident =>
      if entry.1.deferred then do
        let _ ← self.encodeDeferred resident pool.acquire entry.1
        return offset
      else self.encodeScene resident size entry.1.scene offset

/-- `draw_primitives`, with an instance buffer of the size. -/
def drawPrimitives (residency : Residency K) (pool : InstanceBufferPool) (size : Nat)
    (scene : RenderedScene K) : Option Nat := do
  let offset ← scene.updates.zipIdx.foldlM (self.encodeUpdate residency size) 0
  let offset ← scene.batches.zipIdx.foldlM (self.encodeBatch residency pool size) offset
  self.encodeScene residency.scene size scene.scene offset

end Drawing

/-! ## Offsets -/

variable {self : InstanceSizes} {size : Nat}

theorem le_alignOffset (offset : Nat) : offset ≤ alignOffset offset := by
  rw [alignOffset]
  omega

theorem alignOffset_mono {offset other : Nat} (le : offset ≤ other) :
    alignOffset offset ≤ alignOffset other := by
  rw [alignOffset, alignOffset]
  omega

theorem alignOffset_alignOffset (offset : Nat) :
    alignOffset (alignOffset offset) = alignOffset offset := by
  rw [alignOffset, alignOffset]
  omega

theorem le_reserve (bytes offset : Nat) : offset ≤ reserve offset bytes := by
  rw [reserve]
  split
  next => exact le_rfl
  next => exact (le_alignOffset offset).trans (Nat.le_add_right _ _)

theorem reserve_of_pos {bytes : Nat} (positive : 0 < bytes) (offset : Nat) :
    reserve offset bytes = alignOffset offset + bytes :=
  if_neg (ne_of_gt positive)

theorem checked_of_le {next : Nat} (fits : next ≤ size) : checked size next = some next :=
  if_neg (not_lt.mpr fits)

/-- A write of some bytes is planned by reserving them. -/
theorem planned_checked {bytes : Nat} (positive : 0 < bytes) :
    Planned size (fun offset => checked size (alignOffset offset + bytes)) fun offset =>
      reserve offset bytes where
  grows := le_reserve bytes
  stays {offset planned} before fits := by
    rw [reserve_of_pos positive] at fits ⊢
    have ends := Nat.add_le_add_right (alignOffset_mono before) bytes
    exact ⟨_, checked_of_le (ends.trans fits), ends⟩

theorem planned_drawInstances (instanceSize : ℕ+) (count : Nat) :
    Planned size (drawInstances instanceSize size count) fun offset =>
      reserve offset (count * instanceSize) := by
  by_cases none : count = 0
  · have skips : drawInstances instanceSize size count = some :=
      funext fun offset => if_pos none
    rw [skips]
    exact .skip (le_reserve _)
  · have writes : drawInstances instanceSize size count =
        fun offset => checked size (alignOffset offset + count * instanceSize) :=
      funext fun offset => if_neg none
    rw [writes]
    exact planned_checked (Nat.mul_pos (Nat.pos_of_ne_zero none) instanceSize.pos)

/-! ## Batches -/

variable {paths : List (Primitive K)}

theorem spriteCount_pos (some_ : paths ≠ []) : 0 < spriteCount paths := by
  rw [spriteCount, List.head?_eq_some_head some_, List.getLast?_eq_some_getLast some_]
  dsimp only
  split
  next => exact List.length_pos_of_ne_nil some_
  next => exact Nat.one_pos

/-- Aligned, the offset of the vertices is not ahead of that of the dry run. -/
theorem exists_drawPathsToIntermediate {offset planned : Nat}
    (before : alignOffset offset ≤ alignOffset planned)
    (fits : alignOffset (paths.foldl (fun offset path =>
      reserve offset (path.vertices.length * self.pathRasterizationVertex)) planned) ≤ size) :
    ∃ next, self.drawPathsToIntermediate size paths offset = some next ∧
      alignOffset next ≤ alignOffset (paths.foldl (fun offset path =>
        reserve offset (path.vertices.length * self.pathRasterizationVertex)) planned) := by
  induction paths generalizing offset planned with
  | nil => exact ⟨offset, rfl, before⟩
  | cons path paths ih =>
      rw [List.foldl_cons] at fits ⊢
      have grows : ∀ start, start ≤ paths.foldl (fun offset path =>
          reserve offset (path.vertices.length * self.pathRasterizationVertex)) start := by
        apply Planned.le_foldl
        exact fun offset path => le_reserve _ offset
      have reserved : alignOffset offset + path.vertices.length * self.pathRasterizationVertex ≤
          alignOffset (reserve planned
            (path.vertices.length * self.pathRasterizationVertex)) := by
        rw [reserve]
        split
        next none =>
          rw [none, Nat.add_zero]
          exact before
        next => exact (Nat.add_le_add_right before _).trans (le_alignOffset _)
      have written := checked_of_le ((reserved.trans (alignOffset_mono (grows _))).trans fits)
      have behind := alignOffset_mono reserved
      rw [alignOffset_alignOffset] at behind
      rcases ih behind fits with ⟨next, runs, ends⟩
      refine ⟨next, ?_, ends⟩
      rw [drawPathsToIntermediate, List.foldlM_cons]
      exact Option.bind_eq_some_iff.mpr ⟨_, written, runs⟩

theorem le_visitPaths (paths : List (Primitive K)) (offset : Nat) :
    offset ≤ self.visitPaths paths offset := by
  apply (Planned.le_foldl _ offset).trans (le_reserve _ _)
  exact fun offset path => le_reserve _ offset

/-- The sprites are reserved after the vertices, so that paths without any do no harm. -/
theorem planned_drawPaths (paths : List (Primitive K)) :
    Planned size (fun offset => do
      let offset ← self.drawPathsToIntermediate size paths offset
      self.drawPathsFromIntermediate size paths offset) (self.visitPaths paths) := by
  by_cases none : paths = []
  · subst none
    exact (Planned.skip (le_visitPaths []) : Planned size some _)
  · have positive : 0 < spriteCount paths * self.pathSprite :=
      Nat.mul_pos (spriteCount_pos none) self.pathSprite.pos
    constructor
    · exact le_visitPaths paths
    · intro offset planned before fits
      rw [visitPaths, reserve_of_pos positive] at fits ⊢
      rcases exists_drawPathsToIntermediate (alignOffset_mono before)
        ((Nat.le_add_right _ _).trans fits) with ⟨middle, runs, ends⟩
      have endsOn := Nat.add_le_add_right ends (spriteCount paths * self.pathSprite)
      refine ⟨_, Option.bind_eq_some_iff.mpr ⟨middle, runs, ?_⟩, endsOn⟩
      rw [drawPathsFromIntermediate, if_neg none]
      exact checked_of_le (endsOn.trans fits)

theorem planned_drawRasterTiles (resident : RasterTile K → Bool) (tiles : List (Primitive K)) :
    Planned size (self.drawRasterTiles resident size tiles) fun offset =>
      tiles.foldl (fun offset _ => reserve offset self.rasterTileBounds) offset := by
  apply Planned.foldlM
  intro tile _
  by_cases there : tile.isResident resident = true
  · simp only [there, if_true]
    exact planned_checked self.rasterTileBounds.pos
  · simp only [there, Bool.false_eq_true, if_false]
    exact .skip (le_reserve _)

theorem planned_drawBatch (resident : RasterTile K → Bool) (batch : PrimitiveBatch K) :
    Planned size (self.drawBatch resident size batch) (self.visitBatch batch) := by
  rcases batch with ⟨kind, textureId, values⟩
  cases kind with
  | shadow => exact planned_drawInstances self.shadow values.length
  | quad => exact planned_drawInstances self.quad values.length
  | path => exact planned_drawPaths values
  | underline => exact planned_drawInstances self.underline values.length
  | monochromeSprite => exact planned_drawInstances self.monochromeSprite values.length
  | polychromeSprite => exact planned_drawInstances self.polychromeSprite values.length
  | surface => exact .foldlM fun _ _ => planned_checked self.surface.pos
  | rasterTile => exact planned_drawRasterTiles resident values

theorem planned_encodeScene (resident : RasterTile K → Bool) (scene : Scene K) :
    Planned size (self.encodeScene resident size scene) (self.visit scene) :=
  .foldlM fun batch _ => planned_drawBatch resident batch

theorem planned_encodeUpdate (residency : Residency K) (entry : Scene K × Nat) :
    Planned size (fun offset => self.encodeUpdate residency size offset entry) fun offset =>
      self.visit entry.1 offset := by
  cases there : residency.update entry.2 with
  | none =>
      simp only [encodeUpdate, there]
      have planned : Planned size (self.encodeScene (fun _ => false) size entry.1)
          (self.visit entry.1) := planned_encodeScene ..
      exact .skip planned.grows
  | some resident =>
      simp only [encodeUpdate, there]
      exact planned_encodeScene resident entry.1

theorem requiredInstanceBufferSize_surface {scene surface : RenderedScene K}
    (member : surface ∈ scene.surfaces) :
    self.requiredInstanceBufferSize surface ≤ self.requiredInstanceBufferSize scene := by
  rw [requiredInstanceBufferSize.eq_1 self scene]
  apply le_trans _ (le_max_right _ _)
  exact List.le_max?_getD_of_mem (List.mem_map_of_mem member)

end InstanceSizes

/-! ## Scenes of cached tiles -/

/-- A scene that has primitives of one kind has batches of that kind, which hold no more. -/
theorem BatchIterator.prefix_of_single {kind : PrimitiveKind} {state : BatchIterator K}
    {batches : List (PrimitiveBatch K)} (exhausts : Exhausts BatchIterator.next state batches)
    (aligned : state.Aligned) (single : ∀ other, other ≠ kind → state.iter other = []) :
    (∀ batch ∈ batches, batch.kind = kind) ∧
      batches.flatMap PrimitiveBatch.primitives <+: state.iter kind := by
  induction exhausts with
  | done _ =>
      constructor
      · intro batch member
        cases member
      · exact List.nil_prefix
  | @yield state following batch batches step _ ih =>
      rcases BatchIterator.next_eq_some aligned step with ⟨rest, yields⟩
      have isKind : batch.kind = kind := by
        by_contra differs
        have front := yields.front
        rw [single _ differs] at front
        exact yields.nonempty (List.append_eq_nil_iff.mp front.symm).1
      have singleAfter : ∀ other, other ≠ kind → following.iter other = [] := by
        intro other differs
        rw [yields.iter_of_ne (isKind ▸ differs), single other differs]
      rcases ih yields.aligned singleAfter with ⟨kinds, within⟩
      constructor
      · intro other member
        rcases List.mem_cons.mp member with rfl | later
        · exact isKind
        · exact kinds other later
      · rw [← isKind] at within ⊢
        rw [yields.iter_batchKind] at within
        rw [List.flatMap_cons, yields.front]
        exact (List.prefix_append_right_inj _).mpr within

section Candidate

variable [Field K] [LinearOrder K]

theorem Scene.takeOrder_vector {self taken : Scene K} {bounds : Bounds K} {order : DrawOrder}
    (took : self.takeOrder bounds = some (order, taken)) (kind : PrimitiveKind) :
    taken.vector kind = self.vector kind := by
  rw [takeOrder] at took
  cases open? : self.layerStack.getLast? with
  | some order =>
      simp only [open?] at took
      rcases Option.some.inj took with ⟨⟩
      rfl
  | none =>
      simp only [open?] at took
      rcases Option.bind_eq_some_iff.mp took with ⟨inserted, _, same⟩
      rcases Option.some.inj same with ⟨⟩
      cases kind <;> rfl

/-- A primitive goes to the vector of its kind, or is culled. -/
theorem Scene.length_insertPrimitive {self next : Scene K} {primitive : Primitive K}
    (inserts : self.insertPrimitive primitive = some next) (kind : PrimitiveKind) :
    (next.vector kind).length ≤
      (self.vector kind).length + if primitive.kind = kind then 1 else 0 := by
  rw [insertPrimitive] at inserts
  split at inserts
  next =>
    rcases Option.some.inj inserts with rfl
    exact Nat.le_add_right _ _
  next =>
    rcases Option.bind_eq_some_iff.mp inserts with ⟨⟨order, taken⟩, took, same⟩
    rcases Option.some.inj same with rfl
    rw [store_vector, takeOrder_vector took, List.length_append]
    split <;> exact le_rfl

namespace InstanceSizes

variable {self : InstanceSizes} {size : Nat} {batch : RenderedBatch K}

/-- The candidate holds cached tiles only, and no more than there are targets. -/
theorem length_candidateScene {candidate : Scene K}
    (isCandidate : candidateScene batch = some candidate) (kind : PrimitiveKind) :
    (candidate.vector kind).length ≤
      if kind = .rasterTile then batch.targets.length else 0 := by
  rcases Option.bind_eq_some_iff.mp isCandidate with ⟨scene, inserts, same⟩
  rcases Option.some.inj same with rfl
  rw [(Scene.finish_vector scene kind).1.length_eq]
  have bound : ∀ {targets : List (RenderedTarget K)} {start last : Scene K},
      targets.foldlM (fun (scene : Scene K) target => scene.insertPrimitive (.rasterTile
        { order := 0
          bounds := target.sourceBounds
          contentMask := ⟨target.sourceBounds⟩
          cacheId := batch.cacheId
          key := target.key
          revision := target.revision })) start = some last →
      (last.vector kind).length ≤
        (start.vector kind).length + if kind = .rasterTile then targets.length else 0 := by
    intro targets start last inserts
    induction targets generalizing start with
    | nil =>
        rcases Option.some.inj inserts with rfl
        exact Nat.le_add_right _ _
    | cons target targets ih =>
        rw [List.foldlM_cons] at inserts
        rcases Option.bind_eq_some_iff.mp inserts with ⟨middle, first, rest⟩
        have one := Scene.length_insertPrimitive first kind
        have more := ih rest
        by_cases isTile : kind = .rasterTile
        · subst isTile
          rw [if_pos rfl] at more ⊢
          rw [Primitive.kind, if_pos rfl] at one
          rw [List.length_cons]
          omega
        · rw [if_neg isTile] at more ⊢
          rw [Primitive.kind, if_neg (Ne.symm isTile)] at one
          exact more.trans one
  have bounded := bound inserts
  have empty : ((Scene.empty : Scene K).vector kind).length = 0 := by
    cases kind <;> rfl
  rw [empty, Nat.zero_add] at bounded
  exact bounded

/-- Encoding the candidate is planned by reserving a tile for every target. -/
theorem planned_candidateScene {candidate : Scene K}
    (isCandidate : candidateScene batch = some candidate) (resident : RasterTile K → Bool) :
    Planned size (self.encodeScene resident size candidate) fun offset =>
      batch.targets.foldl (fun offset _ => reserve offset self.rasterTileBounds) offset := by
  have finished : ∃ scene : Scene K, candidate = scene.finish := by
    rcases Option.bind_eq_some_iff.mp isCandidate with ⟨scene, _, same⟩
    exact ⟨scene, (Option.some.inj same).symm⟩
  rcases finished with ⟨scene, rfl⟩
  have lengths := length_candidateScene isCandidate
  have single : ∀ other, other ≠ PrimitiveKind.rasterTile →
      scene.finish.batchIterator.iter other = [] := by
    intro other differs
    have none := lengths other
    rw [if_neg differs] at none
    exact List.eq_nil_of_length_eq_zero (Nat.le_zero.mp none)
  rcases BatchIterator.prefix_of_single (Scene.exhausts_batches scene)
    (Scene.finish_batchIterator_sound scene).aligned single with ⟨kinds, within⟩
  apply (planned_encodeScene resident scene.finish).mono
  intro offset
  have flat : self.visit scene.finish offset =
      (scene.finish.batches.flatMap PrimitiveBatch.primitives).foldl
        (fun offset _ => reserve offset self.rasterTileBounds) offset := by
    rw [List.foldl_flatMap, visit]
    apply List.foldl_ext
    intro start batch member
    rw [visitBatch, kinds batch member]
  rw [flat, List.foldl_const, List.foldl_const]
  apply Function.monotone_iterate_of_id_le
  · exact le_reserve _
  · exact within.length_le.trans ((lengths .rasterTile).trans_eq (if_pos rfl))

theorem candidateScene_isSome (batch : RenderedBatch K) :
    ∃ candidate, candidateScene batch = some candidate := by
  rcases Scene.replay_isSome (batch.targets.map fun target => PaintOperation.primitive
    (.rasterTile
      { order := 0
        bounds := target.sourceBounds
        contentMask := ⟨target.sourceBounds⟩
        cacheId := batch.cacheId
        key := target.key
        revision := target.revision })) with ⟨scene, replays⟩
  rw [List.foldlM_map] at replays
  exact ⟨scene.finish, Option.bind_eq_some_iff.mpr ⟨scene, replays, rfl⟩⟩

/-! ## Drawing -/

/-- A deferred batch fits a buffer of the size that it requires. -/
theorem exists_encodeDeferred (resident : RasterTile K → Bool)
    (fits : self.batchRequired batch ≤ size) :
    ∃ offset, self.encodeDeferred resident size batch = some offset := by
  rw [batchRequired] at fits
  have planned : Planned size (self.encodeScene resident size batch.scene)
      (self.visit batch.scene) := planned_encodeScene ..
  cases verifies : batch.verify with
  | false =>
      simp only [verifies, Bool.false_eq_true, if_false] at fits
      rcases planned.stays le_rfl fits with ⟨offset, encodes, _⟩
      refine ⟨offset, Option.bind_eq_some_iff.mpr ⟨offset, encodes, ?_⟩⟩
      rw [verifies]
      rfl
  | true =>
      simp only [verifies, if_true] at fits
      rcases candidateScene_isSome batch with ⟨candidate, isCandidate⟩
      rcases (planned.bind (planned_candidateScene isCandidate resident)).stays le_rfl fits with
        ⟨last, encodes, _⟩
      rcases Option.bind_eq_some_iff.mp encodes with ⟨offset, first, compares⟩
      refine ⟨last, Option.bind_eq_some_iff.mpr ⟨offset, first, ?_⟩⟩
      rw [verifies, if_pos rfl]
      exact Option.bind_eq_some_iff.mpr ⟨candidate, isCandidate, compares⟩

theorem planned_encodeBatch (residency : Residency K) (pool : InstanceBufferPool)
    (entry : RenderedBatch K × Nat)
    (fits : entry.1.deferred = true → self.batchRequired entry.1 ≤ pool.acquire) :
    Planned size (fun offset => self.encodeBatch residency pool size offset entry) fun offset =>
      if !entry.1.deferred then self.visit entry.1.scene offset else offset := by
  have planned : Planned size (self.encodeScene (fun _ => false) size entry.1.scene)
      (self.visit entry.1.scene) := planned_encodeScene ..
  cases there : residency.batch entry.2 with
  | none =>
      simp only [encodeBatch, there]
      apply Planned.skip
      intro start
      split
      next => exact planned.grows start
      next => exact le_rfl
  | some resident =>
      cases deferred : entry.1.deferred with
      | false =>
          simp only [encodeBatch, there, deferred]
          exact planned_encodeScene resident entry.1.scene
      | true =>
          rcases exists_encodeDeferred resident (fits deferred) with ⟨offset, encodes⟩
          simp only [encodeBatch, there, deferred, encodes]
          exact Planned.nothing

/-- Drawing ends within what is required of the buffer of the scene itself. -/
theorem exists_drawPrimitives (residency : Residency K) {pool : InstanceBufferPool}
    {scene : RenderedScene K} (fits : self.requiredInstanceBufferSize scene ≤ pool.acquire) :
    ∃ offset, self.drawPrimitives residency pool pool.acquire scene = some offset ∧
      offset ≤ self.requiredInstanceBufferSize scene := by
  rw [requiredInstanceBufferSize] at fits ⊢
  rw [List.foldl_filter] at fits ⊢
  rw [max_le_iff, max_le_iff] at fits
  rcases fits with ⟨⟨fitsMain, fitsDeferred⟩, _⟩
  have deferredFits : ∀ entry ∈ scene.batches.zipIdx, entry.1.deferred = true →
      self.batchRequired entry.1 ≤ pool.acquire := by
    intro entry member deferred
    apply le_trans _ fitsDeferred
    apply List.le_max?_getD_of_mem
    apply List.mem_map_of_mem
    exact List.mem_filter.mpr ⟨List.fst_mem_of_mem_zipIdx member, deferred⟩
  have updates : Planned pool.acquire (fun start => scene.updates.zipIdx.foldlM
      (self.encodeUpdate residency pool.acquire) start) fun start =>
        scene.updates.foldl (fun offset update => self.visit update offset) start :=
    .foldlM_zipIdx fun entry _ => planned_encodeUpdate residency entry
  have batches : Planned pool.acquire (fun start => scene.batches.zipIdx.foldlM
      (self.encodeBatch residency pool pool.acquire) start) fun start =>
        scene.batches.foldl (fun offset batch =>
          if !batch.deferred then self.visit batch.scene offset else offset) start :=
    .foldlM_zipIdx fun entry member =>
      planned_encodeBatch residency pool entry (deferredFits entry member)
  have encodes : Planned pool.acquire (self.encodeScene residency.scene pool.acquire scene.scene)
      (self.visit scene.scene) := planned_encodeScene ..
  rcases (updates.bind (batches.bind encodes)).stays le_rfl fitsMain with ⟨offset, draws, ends⟩
  exact ⟨offset, draws, (ends.trans (le_max_left _ _)).trans (le_max_left _ _)⟩

/-- A scene that fits the instance buffers is drawn with them, and so are its surfaces. -/
theorem drawPrimitives_fits (self : InstanceSizes) (scene : RenderedScene K)
    (pool : InstanceBufferPool) (fits : self.requiredInstanceBufferSize scene ≤ pool.acquire)
    (drawn : RenderedScene K) (isDrawn : drawn = scene ∨ drawn ∈ scene.surfaces)
    (residency : Residency K) :
    ∃ offset, self.drawPrimitives residency pool pool.acquire drawn = some offset ∧
      offset ≤ self.requiredInstanceBufferSize scene := by
  rcases isDrawn with rfl | member
  · exact exists_drawPrimitives residency fits
  · have smaller : self.requiredInstanceBufferSize drawn ≤
        self.requiredInstanceBufferSize scene := requiredInstanceBufferSize_surface member
    rcases exists_drawPrimitives residency (smaller.trans fits) with ⟨offset, draws, ends⟩
    exact ⟨offset, draws, ends.trans smaller⟩

/-- A verified batch beside a compositor surface, in a buffer of just the size required. -/
theorem drawPrimitives_fits_verified :
    let self : InstanceSizes := ⟨96, 208, 96, 16, 64, 96, 96, 64, 16⟩
    let target : RenderedTarget ℚ := ⟨1, 1, ⟨⟨0, 0⟩, ⟨8, 8⟩⟩⟩
    let surface : RenderedScene ℚ := ⟨.empty, [], [], []⟩
    let scene : RenderedScene ℚ :=
      ⟨.empty, [.empty], [⟨1, [target, target], .empty, true, true⟩], [surface]⟩
    let pool : InstanceBufferPool := ⟨self.requiredInstanceBufferSize scene⟩
    let residency : Residency ℚ := ⟨fun _ => none, fun _ => some fun _ => true, fun _ => true⟩
    ∃ offset, self.drawPrimitives residency pool pool.acquire scene = some offset ∧
      offset ≤ self.requiredInstanceBufferSize scene :=
  drawPrimitives_fits _ _ _ le_rfl _ (Or.inl rfl) _

end InstanceSizes

end Candidate

end Gpui
