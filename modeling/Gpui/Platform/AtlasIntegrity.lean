import Gpui.Library.Slots
import Gpui.Platform.MetalAtlas

/-!
# Integrity of the atlas

`remove` lowers the count of a texture whether or not it forgets the key, and it forgets
the key only when it drops the texture.  As long as every key that is removed is the last
one of its texture, the counts, the keys, the slots and the free list agree.
-/

namespace Gpui

open Gpui.Library

/-! ## Rectangles of pixels -/

/-- The pixel is in the rectangle. -/
def Bounds.HasPixel (bounds : Bounds Int) (x y : Int) : Prop :=
  bounds.origin.x ≤ x ∧ x < bounds.origin.x + bounds.size.width ∧
    bounds.origin.y ≤ y ∧ y < bounds.origin.y + bounds.size.height

/-- No pixel is in both rectangles. -/
def Bounds.Apart (first second : Bounds Int) : Prop :=
  ∀ x y, first.HasPixel x y → ¬ second.HasPixel x y

theorem Bounds.Apart.symm {first second : Bounds Int} (apart : first.Apart second) :
    second.Apart first :=
  fun x y inSecond inFirst => apart x y inFirst inSecond

/-- All pixels of a tile are in a rectangle that was handed out. -/
def Bounds.Within (bounds : Bounds Int) (rectangles : List (Bounds Int)) : Prop :=
  ∃ rectangle ∈ rectangles, ∀ x y, bounds.HasPixel x y → rectangle.HasPixel x y

variable {Key A : Type}

/-- `etagere` hands out rectangles that have the size asked for and are apart from all it has
handed out before. -/
structure AtlasAllocator.Lawful (allocator : AtlasAllocator A)
    (allocated : A → List (Bounds Int)) : Prop where
  new : ∀ size, allocated (allocator.new size) = []
  allocate : ∀ {before after size allocation},
    allocator.allocate before size = some (allocation, after) →
      allocated after = allocation.rectangle :: allocated before ∧
        size.width ≤ allocation.rectangle.size.width ∧
        size.height ≤ allocation.rectangle.size.height ∧
        ∀ rectangle ∈ allocated before, allocation.rectangle.Apart rectangle

/-! ## The invariant -/

namespace AtlasTextureList

/-- The textures have the identifiers of their slots, and the free list has the empty
slots. -/
structure Sound (kind : AtlasTextureKind) (list : AtlasTextureList (MetalAtlasTexture A)) :
    Prop where
  ids : ∀ {ix : Nat} {texture : MetalAtlasTexture A}, list.textures[ix]? = some (some texture) →
    texture.id.kind = kind ∧ texture.id.index.toNat = ix
  nodup : list.freeList.Nodup
  free : ∀ ix, ix ∈ list.freeList ↔ list.textures[ix]? = some none

variable {kind : AtlasTextureKind} {list : AtlasTextureList (MetalAtlasTexture A)}

/-- The texture has the identifier of the slot. -/
def InSlot (kind : AtlasTextureKind) (ix : Nat) (texture : MetalAtlasTexture A) : Prop :=
  texture.id.kind = kind ∧ texture.id.index.toNat = ix

theorem sound_iff_slotted :
    Sound kind list ↔ Slotted (InSlot kind) list.textures list.freeList := by
  constructor
  · rintro ⟨ids, nodup, free⟩
    exact ⟨ids, nodup, free⟩
  · rintro ⟨fits, nodup, free⟩
    exact ⟨fits, nodup, free⟩

theorem sound_empty (kind : AtlasTextureKind) :
    Sound kind (.empty : AtlasTextureList (MetalAtlasTexture A)) :=
  sound_iff_slotted.2 (Slotted.empty _)

/-- A texture is replaced by itself, changed. -/
theorem Sound.set (sound : Sound kind list) {ix : Nat} {texture changed : MetalAtlasTexture A}
    (found : list.textures[ix]? = some (some texture)) (same : changed.id = texture.id) :
    Sound kind { list with textures := list.textures.set ix (some changed) } := by
  apply sound_iff_slotted.2
  apply (sound_iff_slotted.1 sound).set found
  rw [InSlot, same]
  exact sound.ids found

/-- A slot is emptied. -/
theorem Sound.drop (sound : Sound kind list) {ix : Nat} {texture : MetalAtlasTexture A}
    (found : list.textures[ix]? = some (some texture)) :
    Sound kind ⟨list.textures.set ix none, list.freeList ++ [ix]⟩ :=
  sound_iff_slotted.2 ((sound_iff_slotted.1 sound).drop found)

/-- What `push_texture` does: a slot that was free or not there has a new texture. -/
theorem Sound.pushTexture (sound : Sound kind list) {allocator : AtlasAllocator A}
    {minSize : Size Int} {ix : Nat} {after : AtlasTextureList (MetalAtlasTexture A)}
    (few : list.textures.length < 2 ^ 32)
    (pushes : list.pushTexture allocator minSize kind = some (ix, after)) :
    Sound kind after ∧ (list.textures[ix]?).join = none ∧
      (∀ other ≠ ix, after.textures[other]? = list.textures[other]?) ∧
      ∃ texture size, after.textures[ix]? = some (some texture) ∧
        texture.liveAtlasKeys = 0 ∧ texture.allocator = allocator.new size := by
  have slotted := sound_iff_slotted.1 sound
  have identified : ∀ {slot : Nat}, slot ≤ list.textures.length →
      (UInt32.ofNat slot).toNat = slot := by
    intro slot within
    rw [UInt32.toNat_ofNat']
    exact Nat.mod_eq_of_lt (lt_of_le_of_lt within few)
  rw [AtlasTextureList.pushTexture] at pushes
  cases top : list.freeList.getLast? with
  | some slot =>
      simp only [top, Option.ite_none_right_eq_some, Option.some.injEq, Prod.mk.injEq] at pushes
      rcases pushes with ⟨within, rfl, rfl⟩
      rcases List.getLast?_eq_some_iff.mp top with ⟨front, split⟩
      refine ⟨sound_iff_slotted.2 ?_, ?_, ?_, _, _, List.getElem?_set_self within, rfl, rfl⟩
      · rw [split, List.dropLast_concat]
        exact slotted.fill split ⟨rfl, identified within.le⟩
      · rw [slotted.vacant split]
        rfl
      · exact fun other different => List.getElem?_set_ne (Ne.symm different)
  | none =>
      simp only [top, Option.some.injEq, Prod.mk.injEq] at pushes
      rcases pushes with ⟨rfl, rfl⟩
      have noneFree : list.freeList = [] := List.getLast?_eq_none_iff.mp top
      rw [noneFree] at slotted
      refine ⟨sound_iff_slotted.2 ?_, by simp, fun _ => getElem?_concat_of_ne, _, _,
        List.getElem?_concat_length, rfl, rfl⟩
      rw [noneFree]
      exact slotted.grow ⟨rfl, identified le_rfl⟩

/-- `allocate` takes the tile from one of the textures, which is changed by it. -/
theorem allocate_spec {allocator : AtlasAllocator A} {size : Size Int}
    {slots after : List (Option (MetalAtlasTexture A))} {tile : AtlasTile}
    (allocates : allocate allocator size slots = some (tile, after)) :
    ∃ ix texture changed, slots[ix]? = some (some texture) ∧
      texture.allocate allocator size = some (tile, changed) ∧
      after = slots.set ix (some changed) := by
  induction slots generalizing after with
  | nil => cases allocates
  | cons slot slots ih =>
      rw [allocate] at allocates
      cases later : allocate allocator size slots with
      | some found =>
          simp only [later, Option.some.injEq, Prod.mk.injEq] at allocates
          rcases found with ⟨foundTile, rest⟩
          rcases allocates with ⟨rfl, rfl⟩
          rcases ih later with ⟨ix, texture, changed, here, takes, rfl⟩
          exact ⟨ix + 1, texture, changed, here, takes, rfl⟩
      | none =>
          simp only [later] at allocates
          rcases Option.bind_eq_some_iff.mp allocates with ⟨texture, rfl, takes⟩
          rcases Option.bind_eq_some_iff.mp takes with ⟨⟨foundTile, changed⟩, taken, same⟩
          rcases Option.some.inj same with ⟨⟩
          exact ⟨0, texture, changed, rfl, taken, rfl⟩

end AtlasTextureList

namespace MetalAtlasState

variable {kind : AtlasTextureKind}

@[simp]
theorem textureList_setTextureList (self : MetalAtlasState Key A) (kind other : AtlasTextureKind)
    (list : AtlasTextureList (MetalAtlasTexture A)) :
    (self.setTextureList kind list).textureList other =
      if other = kind then list else self.textureList other := by
  cases kind <;> cases other <;> rfl

@[simp]
theorem tilesByKey_setTextureList (self : MetalAtlasState Key A) (kind : AtlasTextureKind)
    (list : AtlasTextureList (MetalAtlasTexture A)) :
    (self.setTextureList kind list).tilesByKey = self.tilesByKey := by
  cases kind <;> rfl

@[simp]
theorem setTextureList_setTextureList (self : MetalAtlasState Key A) (kind : AtlasTextureKind)
    (list list' : AtlasTextureList (MetalAtlasTexture A)) :
    (self.setTextureList kind list).setTextureList kind list' =
      self.setTextureList kind list' := by
  cases kind <;> rfl

/-- The keys that are mapped to a texture. -/
def keysOf (self : MetalAtlasState Key A) (id : AtlasTextureId) : Nat :=
  self.tilesByKey.countP fun entry => entry.2.textureId = id

/-- The keys are distinct, every texture counts its keys, and every tile is in a rectangle of
its texture, apart from the others. -/
structure Sound (allocated : A → List (Bounds Int)) (state : MetalAtlasState Key A) : Prop where
  lists : ∀ kind, (state.textureList kind).Sound kind
  unique : (state.tilesByKey.map Prod.fst).Nodup
  counts : ∀ {kind : AtlasTextureKind} {ix : Nat} {texture : MetalAtlasTexture A},
    (state.textureList kind).textures[ix]? = some (some texture) →
      texture.liveAtlasKeys = state.keysOf texture.id
  placed : ∀ {entry}, entry ∈ state.tilesByKey →
    ∃ texture, state.texture entry.2.textureId = some texture ∧
      entry.2.bounds.Within (allocated texture.allocator)
  apart : state.tilesByKey.Pairwise fun first second =>
    first.2.textureId = second.2.textureId → first.2.bounds.Apart second.2.bounds

variable {allocated : A → List (Bounds Int)} {state : MetalAtlasState Key A}

theorem sound_new : Sound allocated (new : MetalAtlasState Key A) where
  lists kind := by cases kind <;> exact AtlasTextureList.sound_empty _
  unique := List.nodup_nil
  counts {kind ix texture} found := by cases kind <;> cases found
  placed member := by cases member
  apart := List.Pairwise.nil

/-- A texture is where its identifier says. -/
theorem texture_eq_some_iff {id : AtlasTextureId} {texture : MetalAtlasTexture A} :
    state.texture id = some texture ↔
      (state.textureList id.kind).textures[id.index.toNat]? = some (some texture) := by
  rw [MetalAtlasState.texture, Option.join_eq_some_iff]

theorem Sound.texture_id (sound : Sound allocated state) {id : AtlasTextureId}
    {texture : MetalAtlasTexture A} (found : state.texture id = some texture) :
    texture.id = id := by
  rcases (sound.lists id.kind).ids (texture_eq_some_iff.1 found) with ⟨sameKind, sameIndex⟩
  rcases texture with ⟨⟨index, kind⟩, allocator, live⟩
  rcases id with ⟨index', kind'⟩
  change kind = kind' at sameKind
  change index.toNat = index'.toNat at sameIndex
  rw [sameKind, UInt32.toNat_inj.mp sameIndex]

theorem Sound.texture_of_slot (sound : Sound allocated state) {ix : Nat}
    {texture : MetalAtlasTexture A}
    (found : (state.textureList kind).textures[ix]? = some (some texture)) :
    state.texture texture.id = some texture := by
  rcases (sound.lists kind).ids found with ⟨rfl, rfl⟩
  exact texture_eq_some_iff.2 found

/-- Textures of other identifiers are not touched when a slot is written. -/
theorem texture_setSlot {list : AtlasTextureList (MetalAtlasTexture A)} {ix : Nat}
    (elsewhere : ∀ other ≠ ix,
      list.textures[other]? = (state.textureList kind).textures[other]?)
    {id : AtlasTextureId} (different : id.kind = kind → id.index.toNat ≠ ix) :
    (state.setTextureList kind list).texture id = state.texture id := by
  rw [MetalAtlasState.texture, MetalAtlasState.texture, textureList_setTextureList]
  split
  next same => rw [elsewhere _ (different same), same]
  next => rfl

theorem texture_setSlot_self {list : AtlasTextureList (MetalAtlasTexture A)}
    {texture : MetalAtlasTexture A} {id : AtlasTextureId}
    (here : list.textures[id.index.toNat]? = some (some texture)) :
    (state.setTextureList id.kind list).texture id = some texture := by
  rw [texture_eq_some_iff, textureList_setTextureList, if_pos rfl]
  exact here

/-! ## Inserting -/

/-- A new texture has no keys. -/
theorem Sound.push (sound : Sound allocated state) {allocator : AtlasAllocator A}
    {minSize : Size Int} {ix : Nat} {list : AtlasTextureList (MetalAtlasTexture A)}
    (few : (state.textureList kind).textures.length < 2 ^ 32)
    (pushes : (state.textureList kind).pushTexture allocator minSize kind = some (ix, list)) :
    Sound allocated (state.setTextureList kind list) := by
  rcases (sound.lists kind).pushTexture few pushes with
    ⟨listSound, vacant, elsewhere, texture, size, here, noKeys, _⟩
  -- No tile is in the slot that is filled.
  have others : ∀ {entry}, entry ∈ state.tilesByKey →
      entry.2.textureId.kind = kind → entry.2.textureId.index.toNat ≠ ix := by
    intro entry member sameKind sameIndex
    rcases sound.placed member with ⟨found, inSlot, _⟩
    rw [MetalAtlasState.texture, sameKind, sameIndex, vacant] at inSlot
    cases inSlot
  constructor
  · intro other
    rw [textureList_setTextureList]
    split
    next same => exact same ▸ listSound
    next => exact sound.lists other
  · rw [tilesByKey_setTextureList]
    exact sound.unique
  · intro other slot item found
    rw [keysOf, tilesByKey_setTextureList]
    rw [textureList_setTextureList] at found
    split at found
    next same =>
      subst same
      by_cases atSlot : slot = ix
      · subst atSlot
        rw [here] at found
        rcases Option.some.inj (Option.some.inj found) with rfl
        rw [noKeys, eq_comm, List.countP_eq_zero]
        intro entry member same
        rcases listSound.ids here with ⟨sameKind, sameIndex⟩
        rw [decide_eq_true_eq] at same
        rw [← same] at sameKind sameIndex
        exact others member sameKind sameIndex
      · rw [elsewhere slot atSlot] at found
        exact sound.counts found
    next => exact sound.counts found
  · intro entry member
    rw [tilesByKey_setTextureList] at member
    rw [texture_setSlot elsewhere (others member)]
    exact sound.placed member
  · rw [tilesByKey_setTextureList]
    exact sound.apart

/-- What a texture hands out is in it, and apart from what it has handed out before. -/
theorem allocate_spec {allocator : AtlasAllocator A} (lawful : allocator.Lawful allocated)
    {texture changed : MetalAtlasTexture A} {size : Size Int} {tile : AtlasTile}
    (allocates : texture.allocate allocator size = some (tile, changed)) :
    tile.textureId = texture.id ∧ changed.id = texture.id ∧
      changed.liveAtlasKeys = texture.liveAtlasKeys + 1 ∧
      tile.bounds.Within (allocated changed.allocator) ∧
      ∀ {bounds : Bounds Int}, bounds.Within (allocated texture.allocator) →
        bounds.Within (allocated changed.allocator) ∧ tile.bounds.Apart bounds := by
  rcases Option.bind_eq_some_iff.mp allocates with ⟨⟨allocation, after⟩, handsOut, same⟩
  rcases Option.some.inj same with ⟨⟩
  rcases lawful.allocate handsOut with ⟨more, wide, high, apart⟩
  have inside : ∀ x y, Bounds.HasPixel ⟨allocation.rectangle.origin, size⟩ x y →
      allocation.rectangle.HasPixel x y := by
    rintro x y ⟨left, right, top, bottom⟩
    exact ⟨left, right.trans_le (by linarith), top, bottom.trans_le (by linarith)⟩
  refine ⟨rfl, rfl, rfl, ?_, ?_⟩
  · rw [more]
    exact ⟨_, List.mem_cons_self, inside⟩
  · rintro bounds ⟨rectangle, member, within⟩
    constructor
    · rw [more]
      exact ⟨rectangle, List.mem_cons_of_mem _ member, within⟩
    · intro x y inTile inBounds
      exact apart rectangle member x y (inside x y inTile) (within x y inBounds)

/-- The state with another map of keys. -/
def withTiles (self : MetalAtlasState Key A) (tilesByKey : List (Key × AtlasTile)) :
    MetalAtlasState Key A :=
  { self with tilesByKey }

@[simp]
theorem textureList_withTiles (self : MetalAtlasState Key A)
    (tilesByKey : List (Key × AtlasTile)) (kind : AtlasTextureKind) :
    (self.withTiles tilesByKey).textureList kind = self.textureList kind := by
  cases kind <;> rfl

@[simp]
theorem texture_withTiles (self : MetalAtlasState Key A) (tilesByKey : List (Key × AtlasTile))
    (id : AtlasTextureId) : (self.withTiles tilesByKey).texture id = self.texture id := by
  rw [MetalAtlasState.texture, textureList_withTiles, MetalAtlasState.texture]

/-- Two slots do not hold textures of one identifier. -/
theorem Sound.slot_unique (sound : Sound allocated state) {other : AtlasTextureKind} {ix ix' : Nat}
    {texture texture' : MetalAtlasTexture A}
    (found : (state.textureList kind).textures[ix]? = some (some texture))
    (found' : (state.textureList other).textures[ix']? = some (some texture'))
    (same : texture.id = texture'.id) : kind = other ∧ ix = ix' := by
  rcases (sound.lists kind).ids found with ⟨rfl, rfl⟩
  rcases (sound.lists other).ids found' with ⟨rfl, rfl⟩
  rw [same]
  exact ⟨rfl, rfl⟩

theorem Sound.insert (sound : Sound allocated state) {allocator : AtlasAllocator A}
    (lawful : allocator.Lawful allocated) {key : Key}
    (absent : ∀ entry ∈ state.tilesByKey, entry.1 ≠ key) {ix : Nat} {size : Size Int}
    {tile : AtlasTile} {texture changed : MetalAtlasTexture A}
    (found : (state.textureList kind).textures[ix]? = some (some texture))
    (allocates : texture.allocate allocator size = some (tile, changed)) :
    Sound allocated ((state.setTextureList kind
      { state.textureList kind with
        textures := (state.textureList kind).textures.set ix (some changed) }).withTiles
      ((key, tile) :: state.tilesByKey)) := by
  rcases allocate_spec lawful allocates with ⟨tileId, changedId, counted, inside, more⟩
  rcases (sound.lists kind).ids found with ⟨sameKind, sameIndex⟩
  have within : ix < (state.textureList kind).textures.length :=
    (List.getElem?_eq_some_iff.mp found).1
  have atSlot : ∀ {id : AtlasTextureId}, id = texture.id →
      (state.setTextureList kind
        { state.textureList kind with
          textures := (state.textureList kind).textures.set ix (some changed) }).texture id =
        some changed := by
    rintro _ rfl
    rw [← sameKind]
    apply texture_setSlot_self
    rw [sameIndex, sameKind]
    exact List.getElem?_set_self within
  constructor
  · intro other
    rw [textureList_withTiles, textureList_setTextureList]
    split
    next same =>
      subst same
      exact (sound.lists other).set found changedId
    next => exact sound.lists other
  · apply List.nodup_cons.mpr ⟨_, sound.unique⟩
    intro member
    rcases List.mem_map.mp member with ⟨entry, inMap, same⟩
    exact absent entry inMap same
  · intro other slot item foundItem
    rw [textureList_withTiles, textureList_setTextureList] at foundItem
    by_cases here : other = kind ∧ slot = ix
    · rcases here with ⟨rfl, rfl⟩
      rw [if_pos rfl, List.getElem?_set_self within] at foundItem
      rcases Option.some.inj (Option.some.inj foundItem) with rfl
      rw [counted, sound.counts found, changedId]
      refine (List.countP_cons_of_pos ?_).symm
      exact decide_eq_true tileId
    · have foundBefore : (state.textureList other).textures[slot]? = some (some item) := by
        split at foundItem
        next same =>
          rw [List.getElem?_set_ne fun atIx => here ⟨same, atIx.symm⟩] at foundItem
          exact same ▸ foundItem
        next => exact foundItem
      rw [sound.counts foundBefore]
      refine (List.countP_cons_of_neg ?_).symm
      rw [decide_eq_true_eq, tileId]
      intro same
      rcases sound.slot_unique found foundBefore same with ⟨rfl, rfl⟩
      exact here ⟨rfl, rfl⟩
  · intro entry member
    rw [texture_withTiles]
    rcases List.mem_cons.mp member with rfl | before
    · exact ⟨changed, atSlot tileId, inside⟩
    · rcases sound.placed before with ⟨owner, owns, inOwner⟩
      by_cases same : entry.2.textureId = texture.id
      · rw [same, sound.texture_of_slot found] at owns
        rcases Option.some.inj owns with rfl
        exact ⟨changed, atSlot same, (more inOwner).1⟩
      · refine ⟨owner, ?_, inOwner⟩
        rw [← owns]
        refine texture_setSlot (fun other different => List.getElem?_set_ne (Ne.symm different)) ?_
        intro entryKind entryIndex
        rcases texture_eq_some_iff.1 owns with inSlot
        rw [entryKind, entryIndex, found] at inSlot
        rcases Option.some.inj (Option.some.inj inSlot) with rfl
        exact same (sound.texture_id owns).symm
  · apply List.pairwise_cons.mpr ⟨_, sound.apart⟩
    intro entry member same
    rcases sound.placed member with ⟨owner, owns, inOwner⟩
    rw [← same, tileId, sound.texture_of_slot found] at owns
    rcases Option.some.inj owns with rfl
    exact (more inOwner).2

section Keys

variable [DecidableEq Key]

theorem tile_eq_none_iff {key : Key} :
    state.tile key = none ↔ ∀ entry ∈ state.tilesByKey, entry.1 ≠ key := by
  rw [tile, Option.map_eq_none_iff, List.find?_eq_none]
  simp

theorem mem_of_tile {key : Key} {tile : AtlasTile} (mapped : state.tile key = some tile) :
    (key, tile) ∈ state.tilesByKey := by
  rcases Option.map_eq_some_iff.mp mapped with ⟨entry, found, rfl⟩
  have same : entry.1 = key := by
    simpa using List.find?_some found
  rw [← same]
  exact List.mem_of_find?_eq_some found

theorem Sound.getOrInsertWith (sound : Sound allocated state) {allocator : AtlasAllocator A}
    (lawful : allocator.Lawful allocated) {textureKind : Key → AtlasTextureKind} {key : Key}
    {build : Option (Size Int)} {after : MetalAtlasState Key A}
    (few : (state.textureList (textureKind key)).textures.length < 2 ^ 32)
    (inserts : state.getOrInsertWith textureKind allocator key build = some after) :
    Sound allocated after := by
  unfold MetalAtlasState.getOrInsertWith at inserts
  cases mapped : state.tile key with
  | some tile =>
      simp only [mapped] at inserts
      rcases Option.some.inj inserts with rfl
      exact sound
  | none =>
      have absent := tile_eq_none_iff.1 mapped
      simp only [mapped] at inserts
      cases build with
      | none =>
          rcases Option.some.inj inserts with rfl
          exact sound
      | some size =>
          rcases Option.bind_eq_some_iff.mp inserts with ⟨⟨tile?, middle⟩, allocates, rest⟩
          rw [MetalAtlasState.allocate] at allocates
          cases inOld : AtlasTextureList.allocate allocator size
              (state.textureList (textureKind key)).textures with
          | some placed =>
              rcases placed with ⟨tile, textures⟩
              simp only [inOld, Option.some.injEq, Prod.mk.injEq] at allocates
              rcases allocates with ⟨rfl, rfl⟩
              rcases Option.bind_eq_some_iff.mp rest with ⟨_, _, same⟩
              rcases Option.some.inj same with rfl
              rcases AtlasTextureList.allocate_spec inOld with
                ⟨ix, texture, changed, found, takes, rfl⟩
              have inserted := sound.insert lawful absent found takes
              rwa [withTiles, ← tilesByKey_setTextureList] at inserted
          | none =>
              simp only [inOld] at allocates
              rcases Option.bind_eq_some_iff.mp allocates with ⟨⟨ix, list⟩, pushes, more⟩
              rcases Option.bind_eq_some_iff.mp more with ⟨texture, joined, placed⟩
              have found := Option.join_eq_some_iff.mp joined
              have pushed := sound.push few pushes
              cases taken : texture.allocate allocator size with
              | none =>
                  simp only [taken, Option.pure_def, Option.some.injEq, Prod.mk.injEq] at placed
                  rcases placed with ⟨rfl, rfl⟩
                  rcases Option.some.inj rest with rfl
                  exact pushed
              | some takes =>
                  rcases takes with ⟨tile, changed⟩
                  simp only [taken, Option.pure_def, Option.some.injEq, Prod.mk.injEq] at placed
                  rcases placed with ⟨rfl, rfl⟩
                  rcases Option.bind_eq_some_iff.mp rest with ⟨_, _, same⟩
                  rcases Option.some.inj same with rfl
                  have inList : ((state.setTextureList (textureKind key) list).textureList
                      (textureKind key)).textures[ix]? = some (some texture) := by
                    rw [textureList_setTextureList, if_pos rfl]
                    exact found
                  have inserted := pushed.insert lawful
                    (by rwa [tilesByKey_setTextureList]) inList taken
                  rw [textureList_setTextureList, if_pos rfl, setTextureList_setTextureList]
                    at inserted
                  rw [tilesByKey_setTextureList] at inserted ⊢
                  exact inserted

/-! ## Removing -/

/-- No other key is mapped to the texture of the key. -/
def LastKey (state : MetalAtlasState Key A) (key : Key) : Prop :=
  ∀ tile, state.tile key = some tile →
    ∀ entry ∈ state.tilesByKey, entry.2.textureId = tile.textureId → entry.1 = key

omit [DecidableEq Key] in
theorem getElem?_findSlot {id : AtlasTextureId} {ix : Nat}
    (found : findSlot id (state.textureList kind).textures = some ix) :
    ∃ texture, (state.textureList kind).textures[ix]? = some (some texture) ∧ texture.id = id := by
  rw [MetalAtlasState.findSlot, List.findIdx?_eq_some_iff_getElem] at found
  rcases found with ⟨within, holds, _⟩
  rw [Option.any_eq_true_iff_get] at holds
  rcases holds with ⟨full, same⟩
  refine ⟨((state.textureList kind).textures[ix]).get full, ?_, of_decide_eq_true same⟩
  rw [List.getElem?_eq_getElem within, Option.some_get]

theorem Sound.eq_of_key (sound : Sound allocated state) {key : Key} {tile : AtlasTile}
    (mapped : state.tile key = some tile) {entry : Key × AtlasTile}
    (member : entry ∈ state.tilesByKey) (same : entry.1 = key) : entry = (key, tile) :=
  List.inj_on_of_nodup_map sound.unique member (mem_of_tile mapped) same

/-- The only key of a texture is counted once. -/
theorem Sound.keysOf_last (sound : Sound allocated state) {key : Key} {tile : AtlasTile}
    (mapped : state.tile key = some tile) (last : state.LastKey key) :
    state.keysOf tile.textureId = 1 := by
  have byKey : state.keysOf tile.textureId = (state.tilesByKey.map Prod.fst).count key := by
    rw [keysOf, List.count, List.countP_map]
    apply List.countP_congr
    intro entry member
    rw [decide_eq_true_eq, Function.comp_apply, beq_iff_eq]
    constructor
    · exact last tile mapped entry member
    · intro same
      rw [sound.eq_of_key mapped member same]
  rw [byKey]
  exact List.count_eq_one_of_mem sound.unique (List.mem_map_of_mem (mem_of_tile mapped))

/-- The last key of a texture is removed with the texture. -/
theorem Sound.drop (sound : Sound allocated state) {key : Key} {tile : AtlasTile}
    (mapped : state.tile key = some tile) (last : state.LastKey key)
    {texture : MetalAtlasTexture A}
    (found : (state.textureList tile.textureId.kind).textures[tile.textureId.index.toNat]? =
      some (some texture)) :
    Sound allocated ((state.setTextureList tile.textureId.kind
      ⟨(state.textureList tile.textureId.kind).textures.set tile.textureId.index.toNat none,
        (state.textureList tile.textureId.kind).freeList ++ [tile.textureId.index.toNat]⟩).withTiles
      (state.tilesByKey.filter fun entry => entry.1 ≠ key)) := by
  have identified := sound.texture_id (texture_eq_some_iff.2 found)
  constructor
  · intro other
    rw [textureList_withTiles, textureList_setTextureList]
    split
    next same =>
      subst same
      exact (sound.lists _).drop found
    next => exact sound.lists other
  · exact sound.unique.sublist (List.filter_sublist.map Prod.fst)
  · intro other slot item foundItem
    rw [textureList_withTiles, textureList_setTextureList] at foundItem
    have foundBefore : (state.textureList other).textures[slot]? = some (some item) := by
      split at foundItem
      next same =>
        subst same
        rw [List.getElem?_set] at foundItem
        split at foundItem
        next => split at foundItem <;> cases foundItem
        next => exact foundItem
      next => exact foundItem
    rw [sound.counts foundBefore, keysOf, keysOf, withTiles, List.countP_filter]
    apply List.countP_congr
    intro entry member
    simp only [decide_eq_true_eq, ne_eq, decide_not, Bool.and_eq_true, Bool.not_eq_true',
      decide_eq_false_iff_not, iff_self_and]
    -- The removed key is not one of a texture that stays.
    intro owned same
    rw [sound.eq_of_key mapped member same] at owned
    rcases sound.slot_unique found foundBefore (identified.trans owned) with ⟨rfl, rfl⟩
    rw [if_pos rfl, List.getElem?_set_self (List.getElem?_eq_some_iff.mp found).1] at foundItem
    cases foundItem
  · intro entry member
    rcases List.mem_filter.mp member with ⟨before, different⟩
    rw [decide_eq_true_eq] at different
    rw [texture_withTiles]
    rcases sound.placed before with ⟨owner, owns, inOwner⟩
    refine ⟨owner, ?_, inOwner⟩
    rw [← owns]
    refine texture_setSlot (fun other away => List.getElem?_set_ne (Ne.symm away)) ?_
    intro entryKind entryIndex
    have ownerId := sound.texture_id owns
    rw [texture_eq_some_iff, entryKind, entryIndex, found] at owns
    rcases Option.some.inj (Option.some.inj owns) with rfl
    exact different (last tile mapped entry before (ownerId.symm.trans identified))
  · exact sound.apart.filter _

theorem Sound.remove (sound : Sound allocated state) {key : Key} {after : MetalAtlasState Key A}
    (last : state.LastKey key) (removes : state.remove key = some after) :
    Sound allocated after := by
  unfold MetalAtlasState.remove at removes
  cases mapped : state.tile key with
  | none =>
      simp only [mapped] at removes
      rcases Option.some.inj removes with rfl
      exact sound
  | some tile =>
      simp only [mapped] at removes
      cases slot : findSlot tile.textureId (state.textureList tile.textureId.kind).textures with
      | none =>
          simp only [slot] at removes
          rcases Option.some.inj removes with rfl
          exact sound
      | some ix =>
          simp only [slot] at removes
          rcases getElem?_findSlot slot with ⟨texture, found, identified⟩
          rcases (sound.lists _).ids found with ⟨_, sameIndex⟩
          rw [identified] at sameIndex
          subst sameIndex
          have once : texture.liveAtlasKeys = 1 := by
            rw [sound.counts found, identified]
            exact sound.keysOf_last mapped last
          have lowered : texture.decrementRefCount =
              some { texture with liveAtlasKeys := 0 } := by
            simp only [MetalAtlasTexture.decrementRefCount, once]
            rfl
          simp only [found, Option.join_some, Option.bind_eq_bind, Option.bind_some, lowered]
            at removes
          rcases Option.some.inj removes with rfl
          rw [tilesByKey_setTextureList]
          exact sound.drop mapped last found

end Keys

end MetalAtlasState

/-! ## Runs -/

namespace MetalAtlasState

variable [DecidableEq Key]

/-- What the atlas promises. -/
structure Integrity (state : MetalAtlasState Key A) : Prop where
  /-- Every tile is in a texture whose identifier it has. -/
  slots : ∀ {key tile}, state.tile key = some tile →
    ∃ texture, state.texture tile.textureId = some texture ∧ texture.id = tile.textureId
  /-- The count of a texture is the number of keys that are mapped to it. -/
  counts : ∀ {kind texture}, some texture ∈ (state.textureList kind).textures →
    texture.liveAtlasKeys = state.keysOf texture.id
  unique : (state.tilesByKey.map Prod.fst).Nodup
  apart : ∀ {key other tile otherTile}, state.tile key = some tile →
    state.tile other = some otherTile → key ≠ other → tile.textureId = otherTile.textureId →
      tile.bounds.Apart otherTile.bounds
  /-- The free list has the empty slots, once each. -/
  free : ∀ kind, (state.textureList kind).freeList.Nodup ∧
    ∀ ix, ix ∈ (state.textureList kind).freeList ↔
      (state.textureList kind).textures[ix]? = some none

theorem Sound.integrity {allocated : A → List (Bounds Int)} {state : MetalAtlasState Key A}
    (sound : Sound allocated state) : Integrity state where
  slots mapped := by
    rcases sound.placed (mem_of_tile mapped) with ⟨texture, owns, _⟩
    exact ⟨texture, owns, sound.texture_id owns⟩
  counts member := by
    rcases List.mem_iff_getElem?.mp member with ⟨ix, found⟩
    exact sound.counts found
  unique := sound.unique
  apart {key other tile otherTile} mapped mappedOther different same := by
    have symmetric : Std.Symm fun first second : Key × AtlasTile =>
        first.2.textureId = second.2.textureId → first.2.bounds.Apart second.2.bounds :=
      ⟨fun _ _ apart sameTexture => (apart sameTexture.symm).symm⟩
    apply sound.apart.forall (mem_of_tile mapped) (mem_of_tile mappedOther) _ same
    exact fun equal => different (congrArg Prod.fst equal)
  free kind := ⟨(sound.lists kind).nodup, (sound.lists kind).free⟩

/-- A key is removed only when it is the last one of its texture, and no texture is made when
a list has as many slots as there are identifiers. -/
def Careful (textureKind : Key → AtlasTextureKind) (state : MetalAtlasState Key A) :
    AtlasCall Key → Prop
  | .getOrInsertWith key _ => (state.textureList (textureKind key)).textures.length < 2 ^ 32
  | .remove key => state.LastKey key

theorem Sound.step {allocated : A → List (Bounds Int)} {allocator : AtlasAllocator A}
    (lawful : allocator.Lawful allocated) {textureKind : Key → AtlasTextureKind}
    {state next : MetalAtlasState Key A} (sound : Sound allocated state) {call : AtlasCall Key}
    (careful : state.Careful textureKind call)
    (steps : call.step textureKind allocator state = some next) : Sound allocated next := by
  cases call with
  | getOrInsertWith key build => exact sound.getOrInsertWith lawful careful steps
  | remove key => exact sound.remove careful steps

theorem run_integrity {allocated : A → List (Bounds Int)} {allocator : AtlasAllocator A}
    (lawful : allocator.Lawful allocated) {textureKind : Key → AtlasTextureKind}
    {calls : List (AtlasCall Key)} {last : MetalAtlasState Key A}
    (run : Run (fun state call => call.step textureKind allocator state)
      (Careful textureKind) new calls last) : Integrity last := by
  have sound : Sound allocated last :=
    run.invariant (fun _ state => Sound allocated state) sound_new
      fun sound careful steps => sound.step lawful careful steps
  exact sound.integrity

/-- An allocator that places tiles side by side in a row. -/
def rowAllocator : AtlasAllocator (List (Bounds Int)) where
  new _ := []
  allocate before size :=
    let x := (before.map fun rectangle => rectangle.size.width).sum
    if x + size.width ≤ 1024 ∧
        ∀ rectangle ∈ before, rectangle.origin.x + rectangle.size.width ≤ x then
      let rectangle : Bounds Int := ⟨⟨x, 0⟩, size⟩
      some (⟨UInt32.ofNat before.length, rectangle⟩, rectangle :: before)
    else none

theorem rowAllocator_lawful : rowAllocator.Lawful id where
  new _ := rfl
  allocate {before after size allocation} handsOut := by
    rw [rowAllocator, Option.ite_none_right_eq_some] at handsOut
    rcases handsOut with ⟨⟨_, clear⟩, same⟩
    rcases Option.some.inj same with ⟨⟩
    refine ⟨rfl, le_rfl, le_rfl, ?_⟩
    intro rectangle member x y inNew inOld
    exact absurd (inOld.2.1.trans_le (clear rectangle member)) (not_lt_of_ge inNew.1)

theorem run_integrity_reused :
    ∃ last : MetalAtlasState Nat (List (Bounds Int)), Integrity last ∧
      (last.tile 2).map AtlasTile.bounds = some ⟨⟨0, 0⟩, ⟨8, 8⟩⟩ := by
  let held : MetalAtlasState Nat (List (Bounds Int)) :=
    { monochromeTextures := ⟨[some ⟨⟨0, .monochrome⟩, [⟨⟨0, 0⟩, ⟨8, 8⟩⟩], 1⟩], []⟩
      polychromeTextures := .empty
      tilesByKey := [(1, ⟨⟨0, .monochrome⟩, 0, 0, ⟨⟨0, 0⟩, ⟨8, 8⟩⟩⟩)] }
  have lastKey : LastKey held 1 := by
    intro tile _ entry member _
    rw [List.mem_singleton.mp member]
  have runs : ∃ last : MetalAtlasState Nat (List (Bounds Int)),
      Run (fun state call => AtlasCall.step (fun _ => .monochrome) rowAllocator state call)
        (Careful fun _ => .monochrome) new
        [.getOrInsertWith (1 : Nat) (some (⟨8, 8⟩ : Size Int)), .remove 1,
          .getOrInsertWith 2 (some ⟨8, 8⟩)] last ∧
      (last.tile 2).map AtlasTile.bounds = some ⟨⟨0, 0⟩, ⟨8, 8⟩⟩ :=
    ⟨_, .cons (show 0 < 2 ^ 32 by decide) rfl (.cons lastKey rfl
      (.cons (show 1 < 2 ^ 32 by decide) rfl .nil)), rfl⟩
  rcases runs with ⟨last, run, placed⟩
  exact ⟨last, run_integrity rowAllocator_lawful run, placed⟩

/-- A key that is removed twice takes the texture from under another key. -/
theorem not_run_integrity :
    rowAllocator.Lawful id ∧
      ¬ ∀ (calls : List (AtlasCall Nat)) (last : MetalAtlasState Nat (List (Bounds Int))),
        Run (fun state call => call.step (fun _ => .monochrome) rowAllocator state)
          (fun _ _ => True) new calls last → Integrity last := by
  refine ⟨rowAllocator_lawful, ?_⟩
  intro integrity
  have removed : ∃ (last : MetalAtlasState Nat (List (Bounds Int))) (tile : AtlasTile),
      [AtlasCall.getOrInsertWith 1 (some ⟨8, 8⟩), .getOrInsertWith 2 (some ⟨8, 8⟩), .remove 1,
        .remove 1].foldlM (fun state call =>
          AtlasCall.step (fun _ => .monochrome) rowAllocator state call) new = some last ∧
        last.tile 2 = some tile ∧ last.texture tile.textureId = none :=
    ⟨_, _, rfl, rfl, rfl⟩
  rcases removed with ⟨last, tile, runs, mapped, missing⟩
  rcases (integrity _ last (.of_foldlM runs)).slots mapped with ⟨texture, found, _⟩
  cases missing.symm.trans found

end MetalAtlasState

end Gpui
