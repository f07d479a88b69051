import Gpui.Library.Slots
import Gpui.Platform.AtlasIntegrity
import Gpui.Platform.BladeAtlas

/-!
# Uploads of the Blade atlas

The counts and the keys agree whatever is called.  The queues are right as long as no
texture is dropped that they name: a slot that is freed under a queued upload is empty when
the upload is flushed, or holds another texture.
-/

namespace Gpui

open Gpui.Library

namespace BladeAtlasState

variable {Key A : Type}

/-- The texture has the identifier of the slot. -/
def InSlot (kind : AtlasTextureKind) (ix : Nat) (texture : BladeAtlasTexture A) : Prop :=
  texture.id.kind = kind ∧ texture.id.index.toNat = ix

/-- The keys that are mapped to a texture. -/
def keysOf (self : BladeAtlasState Key A) (id : AtlasTextureId) : Nat :=
  self.tilesByKey.countP fun entry => entry.2.textureId = id

/-- The slots and the free lists agree. -/
def Slots (state : BladeAtlasState Key A) : Prop :=
  ∀ kind, Slotted (InSlot kind) (state.textureList kind).textures
    (state.textureList kind).freeList

/-- The slots and the free lists agree, the keys are distinct, every texture counts its keys,
and every key has a texture. -/
structure Sound (state : BladeAtlasState Key A) : Prop where
  lists : state.Slots
  unique : (state.tilesByKey.map Prod.fst).Nodup
  counts : ∀ {id texture}, state.texture id = some texture →
    texture.liveAtlasKeys = state.keysOf id
  placed : ∀ {entry}, entry ∈ state.tilesByKey →
    (state.texture entry.2.textureId).isSome = true

/-- What is queued is for a texture that is still there. -/
structure Queued (state : BladeAtlasState Key A) : Prop where
  initializations : ∀ {pending}, pending ∈ state.initializations →
    ∃ texture, state.texture pending.id = some texture ∧ texture.raw = pending.raw
  uploads : ∀ {upload}, upload ∈ state.uploads →
    ∃ texture, state.texture upload.id = some texture ∧ texture.raw = upload.raw

theorem sound_new : Sound (new : BladeAtlasState Key A) where
  lists kind := by cases kind <;> exact Slotted.empty _
  unique := List.nodup_nil
  counts {id texture} found := by
    rcases id with ⟨index, kind⟩
    cases kind <;> cases found
  placed member := by cases member

theorem queued_new : Queued (new : BladeAtlasState Key A) where
  initializations member := by cases member
  uploads member := by cases member

/-! ## Slots as textures -/

variable {state : BladeAtlasState Key A} {kind : AtlasTextureKind}

@[simp]
theorem textureList_setTextureList (self : BladeAtlasState Key A) (kind other : AtlasTextureKind)
    (list : AtlasTextureList (BladeAtlasTexture A)) :
    (self.setTextureList kind list).textureList other =
      if other = kind then list else self.textureList other := by
  cases kind <;> cases other <;> rfl

@[simp]
theorem tilesByKey_setTextureList (self : BladeAtlasState Key A) (kind : AtlasTextureKind)
    (list : AtlasTextureList (BladeAtlasTexture A)) :
    (self.setTextureList kind list).tilesByKey = self.tilesByKey := by
  cases kind <;> rfl

@[simp]
theorem initializations_setTextureList (self : BladeAtlasState Key A) (kind : AtlasTextureKind)
    (list : AtlasTextureList (BladeAtlasTexture A)) :
    (self.setTextureList kind list).initializations = self.initializations := by
  cases kind <;> rfl

@[simp]
theorem uploads_setTextureList (self : BladeAtlasState Key A) (kind : AtlasTextureKind)
    (list : AtlasTextureList (BladeAtlasTexture A)) :
    (self.setTextureList kind list).uploads = self.uploads := by
  cases kind <;> rfl

/-- A texture is where its identifier says. -/
theorem texture_eq_some_iff {id : AtlasTextureId} {texture : BladeAtlasTexture A} :
    state.texture id = some texture ↔
      (state.textureList id.kind).textures[id.index.toNat]? = some (some texture) := by
  rw [BladeAtlasState.texture, Option.join_eq_some_iff]

theorem id_eq {id other : AtlasTextureId} (kind : id.kind = other.kind)
    (index : id.index.toNat = other.index.toNat) : id = other := by
  rcases id with ⟨index₁, kind₁⟩
  rcases other with ⟨index₂, kind₂⟩
  change kind₁ = kind₂ at kind
  change index₁.toNat = index₂.toNat at index
  rw [kind, UInt32.toNat_inj.mp index]

/-- The slot of one texture is written. -/
theorem texture_setTextureList (state : BladeAtlasState Key A) (id : AtlasTextureId)
    {list : AtlasTextureList (BladeAtlasTexture A)} {texture : Option (BladeAtlasTexture A)}
    (here : (list.textures[id.index.toNat]?).join = texture)
    (elsewhere : ∀ other ≠ id.index.toNat,
      list.textures[other]? = (state.textureList id.kind).textures[other]?) :
    (state.setTextureList id.kind list).texture =
      Function.update state.texture id texture := by
  funext other
  rw [BladeAtlasState.texture, textureList_setTextureList]
  by_cases same : other = id
  · rw [same, Function.update_self, if_pos rfl]
    exact here
  · rw [Function.update_of_ne same, BladeAtlasState.texture]
    by_cases sameKind : other.kind = id.kind
    · rw [if_pos sameKind, elsewhere _ fun sameIndex => same (id_eq sameKind sameIndex), sameKind]
    · rw [if_neg sameKind]

theorem Sound.texture_id (sound : Sound state) {id : AtlasTextureId}
    {texture : BladeAtlasTexture A} (found : state.texture id = some texture) :
    texture.id = id := by
  rcases (sound.lists id.kind).fits (texture_eq_some_iff.1 found) with ⟨sameKind, sameIndex⟩
  exact id_eq sameKind sameIndex

/-- A texture that is there is replaced by itself, changed. -/
theorem Slots.setSlot (lists : state.Slots) {id : AtlasTextureId}
    {texture changed : BladeAtlasTexture A} (found : state.texture id = some texture)
    (same : changed.id = id) :
    (state.setSlot id.kind id.index.toNat changed).Slots ∧
      (state.setSlot id.kind id.index.toNat changed).texture =
        Function.update state.texture id (some changed) := by
  have inSlot := texture_eq_some_iff.1 found
  constructor
  · intro other
    rw [BladeAtlasState.setSlot, textureList_setTextureList]
    split
    next here =>
      subst here
      apply (lists _).set inSlot
      rw [InSlot, same]
      exact ⟨rfl, rfl⟩
    next => exact lists other
  · apply texture_setTextureList
    · rw [List.getElem?_set_self (List.getElem?_eq_some_iff.mp inSlot).1]
      rfl
    · exact fun other different => List.getElem?_set_ne (Ne.symm different)

/-- The state without the texture in the slot. -/
def dropSlot (self : BladeAtlasState Key A) (id : AtlasTextureId) : BladeAtlasState Key A :=
  self.setTextureList id.kind
    ⟨(self.textureList id.kind).textures.set id.index.toNat none,
      (self.textureList id.kind).freeList ++ [id.index.toNat]⟩

theorem Slots.dropSlot (lists : state.Slots) {texture : BladeAtlasTexture A}
    {id : AtlasTextureId} (found : state.texture id = some texture) :
    (state.dropSlot id).Slots ∧
      (state.dropSlot id).texture = Function.update state.texture id none := by
  have inSlot := texture_eq_some_iff.1 found
  constructor
  · intro other
    rw [BladeAtlasState.dropSlot, textureList_setTextureList]
    split
    next here =>
      subst here
      exact (lists _).drop inSlot
    next => exact lists other
  · apply texture_setTextureList
    · rw [List.getElem?_set_self (List.getElem?_eq_some_iff.mp inSlot).1]
      rfl
    · exact fun other different => List.getElem?_set_ne (Ne.symm different)

/-- What `push_texture` does: a slot that was free or not there has a new texture, which is
queued. -/
theorem Sound.pushTexture (sound : Sound state) {allocator : AtlasAllocator A}
    {minSize : Size Int} {ix : Nat} {texture : BladeAtlasTexture A} {after : BladeAtlasState Key A}
    (few : (state.textureList kind).textures.length < 2 ^ 32)
    (pushes : state.pushTexture allocator minSize kind = some (ix, texture, after)) :
    after.Slots ∧ after.texture = Function.update state.texture texture.id (some texture) ∧
      state.texture texture.id = none ∧ texture.liveAtlasKeys = 0 ∧
      (after.textureList kind).textures[ix]? = some (some texture) ∧
      after.tilesByKey = state.tilesByKey ∧ after.uploads = state.uploads ∧
      after.initializations = state.initializations ++ [⟨texture.id, texture.raw⟩] := by
  have slotted := sound.lists kind
  have identified : ∀ {slot : Nat}, slot ≤ (state.textureList kind).textures.length →
      (UInt32.ofNat slot).toNat = slot := by
    intro slot within
    rw [UInt32.toNat_ofNat']
    exact Nat.mod_eq_of_lt (lt_of_le_of_lt within few)
  unfold BladeAtlasState.pushTexture at pushes
  cases top : (state.textureList kind).freeList.getLast? with
  | some slot =>
      simp only [top, Option.getD_some, Option.ite_none_right_eq_some, Option.some.injEq,
        Prod.mk.injEq] at pushes
      rcases pushes with ⟨within, rfl, rfl, rfl⟩
      have index := identified within.le
      rcases List.getLast?_eq_some_iff.mp top with ⟨front, split⟩
      have vacant := slotted.vacant split
      refine ⟨?_, ?_, ?_, rfl, ?_, tilesByKey_setTextureList .., uploads_setTextureList ..,
        initializations_setTextureList ..⟩
      · intro other
        rw [textureList_setTextureList]
        split
        next same =>
          subst same
          rw [split, List.dropLast_concat]
          exact slotted.fill split ⟨rfl, index⟩
        next => exact sound.lists other
      · refine texture_setTextureList { state with
          created := state.created + 1
          initializations := _ } ⟨_, kind⟩ ?_ ?_
        · rw [index, List.getElem?_set_self within]
          rfl
        · intro other different
          rw [index] at different
          exact List.getElem?_set_ne (Ne.symm different)
      · rw [BladeAtlasState.texture, index, vacant]
        rfl
      · rw [textureList_setTextureList, if_pos rfl]
        exact List.getElem?_set_self within
  | none =>
      simp only [top, Option.getD_none, Option.some.injEq, Prod.mk.injEq] at pushes
      rcases pushes with ⟨rfl, rfl, rfl⟩
      have index := identified le_rfl
      have noneFree : (state.textureList kind).freeList = [] := List.getLast?_eq_none_iff.mp top
      rw [noneFree] at slotted
      refine ⟨?_, ?_, ?_, rfl, ?_, tilesByKey_setTextureList .., uploads_setTextureList ..,
        initializations_setTextureList ..⟩
      · intro other
        rw [textureList_setTextureList]
        split
        next same =>
          subst same
          rw [noneFree]
          exact slotted.grow ⟨rfl, index⟩
        next => exact sound.lists other
      · refine texture_setTextureList { state with
          created := state.created + 1
          initializations := _ } ⟨_, kind⟩ ?_ ?_
        · rw [index, List.getElem?_concat_length]
          rfl
        · intro other different
          rw [index] at different
          exact getElem?_concat_of_ne different
      · rw [BladeAtlasState.texture, index, List.getElem?_eq_none le_rfl]
        rfl
      · rw [textureList_setTextureList, if_pos rfl]
        exact List.getElem?_concat_length

@[simp]
theorem texture_withTiles (self : BladeAtlasState Key A) (tilesByKey : List (Key × AtlasTile)) :
    ({ self with tilesByKey } : BladeAtlasState Key A).texture = self.texture := by
  funext id
  rcases id with ⟨index, kind⟩
  cases kind <;> rfl

@[simp]
theorem textureList_withTiles (self : BladeAtlasState Key A)
    (tilesByKey : List (Key × AtlasTile)) (kind : AtlasTextureKind) :
    ({ self with tilesByKey } : BladeAtlasState Key A).textureList kind =
      self.textureList kind := by
  cases kind <;> rfl

/-! ## One texture at a time -/

/-- The state changes at one texture, which counts its keys. -/
theorem Sound.of_update (sound : Sound state) {after : BladeAtlasState Key A}
    {id : AtlasTextureId} {texture : Option (BladeAtlasTexture A)}
    (textures : after.texture = Function.update state.texture id texture)
    (lists : after.Slots)
    (unique : (after.tilesByKey.map Prod.fst).Nodup)
    (others : ∀ other ≠ id, after.keysOf other = state.keysOf other)
    (count : ∀ changed, texture = some changed → changed.liveAtlasKeys = after.keysOf id)
    (kept : texture = none → after.keysOf id = 0)
    (old : ∀ entry ∈ after.tilesByKey, entry.2.textureId ≠ id → entry ∈ state.tilesByKey) :
    Sound after where
  lists := lists
  unique := unique
  counts {other item} found := by
    rw [textures] at found
    by_cases same : other = id
    · rw [same, Function.update_self] at found
      rw [same]
      exact count item found
    · rw [Function.update_of_ne same] at found
      rw [others other same]
      exact sound.counts found
  placed {entry} member := by
    rw [textures]
    by_cases same : entry.2.textureId = id
    · rw [same, Function.update_self]
      cases left : texture with
      | some changed => rfl
      | none =>
          have away := List.countP_eq_zero.mp (kept left) entry member
          rw [same, decide_eq_true_eq] at away
          exact absurd rfl away
    · rw [Function.update_of_ne same]
      exact sound.placed (old entry member same)

theorem Queued.of_update (queued : Queued state) {after : BladeAtlasState Key A}
    {id : AtlasTextureId} {texture : Option (BladeAtlasTexture A)}
    (textures : after.texture = Function.update state.texture id texture)
    (initializations : ∀ pending ∈ after.initializations, pending ∈ state.initializations ∧
      pending.id ≠ id ∨ ∃ changed, pending.id = id ∧ texture = some changed ∧
        changed.raw = pending.raw)
    (uploads : ∀ upload ∈ after.uploads, upload ∈ state.uploads ∧ upload.id ≠ id ∨
      ∃ changed, upload.id = id ∧ texture = some changed ∧ changed.raw = upload.raw) :
    Queued after where
  initializations {pending} member := by
    rw [textures]
    rcases initializations pending member with ⟨before, away⟩ | ⟨changed, same, rfl, raw⟩
    · rw [Function.update_of_ne away]
      exact queued.initializations before
    · rw [same, Function.update_self]
      exact ⟨changed, rfl, raw⟩
  uploads {upload} member := by
    rw [textures]
    rcases uploads upload member with ⟨before, away⟩ | ⟨changed, same, rfl, raw⟩
    · rw [Function.update_of_ne away]
      exact queued.uploads before
    · rw [same, Function.update_self]
      exact ⟨changed, rfl, raw⟩

/-- The texture is replaced by itself, changed. -/
theorem Queued.replace (queued : Queued state) {after : BladeAtlasState Key A}
    {id : AtlasTextureId} {texture changed : BladeAtlasTexture A}
    (owns : state.texture id = some texture)
    (textures : after.texture = Function.update state.texture id (some changed))
    (sameRaw : changed.raw = texture.raw)
    (initializations : ∀ pending ∈ after.initializations, pending ∈ state.initializations ∨
      pending.id = id ∧ texture.raw = pending.raw)
    (uploads : ∀ upload ∈ after.uploads, upload ∈ state.uploads ∨
      upload.id = id ∧ texture.raw = upload.raw) : Queued after := by
  apply queued.of_update textures
  · intro pending member
    rcases initializations pending member with before | ⟨same, raw⟩
    · by_cases same : pending.id = id
      · rcases queued.initializations before with ⟨owner, found, raw⟩
        rw [same, owns] at found
        rcases Option.some.inj found with rfl
        exact Or.inr ⟨changed, same, rfl, sameRaw.trans raw⟩
      · exact Or.inl ⟨before, same⟩
    · exact Or.inr ⟨changed, same, rfl, sameRaw.trans raw⟩
  · intro upload member
    rcases uploads upload member with before | ⟨same, raw⟩
    · by_cases same : upload.id = id
      · rcases queued.uploads before with ⟨owner, found, raw⟩
        rw [same, owns] at found
        rcases Option.some.inj found with rfl
        exact Or.inr ⟨changed, same, rfl, sameRaw.trans raw⟩
      · exact Or.inl ⟨before, same⟩
    · exact Or.inr ⟨changed, same, rfl, sameRaw.trans raw⟩

/-! ## Inserting -/

theorem allocateLast_spec {allocator : AtlasAllocator A} {size : Size Int}
    {slots : List (Option (BladeAtlasTexture A))} {ix : Nat} {tile : AtlasTile}
    {changed : BladeAtlasTexture A}
    (allocates : BladeAtlasTexture.allocateLast allocator size slots = some (ix, tile, changed)) :
    ∃ texture, slots[ix]? = some (some texture) ∧
      texture.allocate allocator size = some (tile, changed) := by
  induction slots generalizing ix with
  | nil => cases allocates
  | cons slot slots ih =>
      rw [BladeAtlasTexture.allocateLast] at allocates
      cases later : BladeAtlasTexture.allocateLast allocator size slots with
      | some found =>
          simp only [later] at allocates
          rcases Option.some.inj allocates with ⟨⟩
          exact ih later
      | none =>
          simp only [later] at allocates
          rcases Option.bind_eq_some_iff.mp allocates with ⟨texture, rfl, takes⟩
          rcases Option.bind_eq_some_iff.mp takes with ⟨⟨foundTile, after⟩, taken, same⟩
          rcases Option.some.inj same with ⟨⟩
          exact ⟨texture, rfl, taken⟩

theorem allocate_spec {allocator : AtlasAllocator A} {texture changed : BladeAtlasTexture A}
    {size : Size Int} {tile : AtlasTile}
    (allocates : texture.allocate allocator size = some (tile, changed)) :
    tile.textureId = texture.id ∧ changed.id = texture.id ∧ changed.raw = texture.raw ∧
      changed.liveAtlasKeys = texture.liveAtlasKeys + 1 := by
  rcases Option.bind_eq_some_iff.mp allocates with ⟨⟨allocation, after⟩, _, same⟩
  rcases Option.some.inj same with ⟨⟩
  exact ⟨rfl, rfl, rfl, rfl⟩

/-- The tile is queued and mapped. -/
def inserted (self : BladeAtlasState Key A) (key : Key) (tile : AtlasTile) (raw : Nat) :
    BladeAtlasState Key A :=
  { self.uploadTexture tile.textureId tile.bounds raw with
    tilesByKey := (key, tile) :: self.tilesByKey }

theorem texture_inserted (self : BladeAtlasState Key A) (key : Key) (tile : AtlasTile)
    (raw : Nat) : (self.inserted key tile raw).texture = self.texture := by
  funext id
  rcases id with ⟨index, kind⟩
  cases kind <;> rfl

theorem Sound.insert (sound : Sound state) {allocator : AtlasAllocator A} {key : Key}
    (absent : ∀ entry ∈ state.tilesByKey, entry.1 ≠ key) {ix : Nat} {size : Size Int}
    {tile : AtlasTile} {texture changed : BladeAtlasTexture A}
    (found : (state.textureList kind).textures[ix]? = some (some texture))
    (allocates : texture.allocate allocator size = some (tile, changed)) :
    Sound ((state.setSlot kind ix changed).inserted key tile changed.raw) ∧
      (Queued state → Queued ((state.setSlot kind ix changed).inserted key tile changed.raw)) := by
  rcases allocate_spec allocates with ⟨tileId, changedId, sameRaw, counted⟩
  rcases (sound.lists kind).fits found with ⟨rfl, rfl⟩
  have inState : state.texture texture.id = some texture := texture_eq_some_iff.2 found
  rcases sound.lists.setSlot inState changedId with ⟨lists, textures⟩
  have tiles : ((state.setSlot texture.id.kind texture.id.index.toNat changed).inserted
      key tile changed.raw).tilesByKey = (key, tile) :: state.tilesByKey := by
    rw [inserted, BladeAtlasState.setSlot, tilesByKey_setTextureList]
  have sameTextures : ((state.setSlot texture.id.kind texture.id.index.toNat changed).inserted
      key tile changed.raw).texture = Function.update state.texture texture.id (some changed) := by
    rw [texture_inserted, textures]
  constructor
  · apply sound.of_update sameTextures
    · intro other
      cases other with
      | monochrome => exact lists .monochrome
      | polychrome => exact lists .polychrome
    · rw [tiles]
      apply List.nodup_cons.mpr ⟨_, sound.unique⟩
      intro member
      rcases List.mem_map.mp member with ⟨entry, inMap, same⟩
      exact absent entry inMap same
    · intro other different
      rw [keysOf, tiles, keysOf]
      apply List.countP_cons_of_neg
      rw [decide_eq_true_eq, tileId]
      exact Ne.symm different
    · intro item same
      rcases Option.some.inj same with rfl
      rw [counted, sound.counts inState, keysOf, keysOf, tiles]
      refine (List.countP_cons_of_pos ?_).symm
      exact decide_eq_true tileId
    · intro gone
      cases gone
    · intro entry member away
      rw [tiles] at member
      rcases List.mem_cons.mp member with rfl | before
      · exact absurd tileId away
      · exact before
  · intro queued
    apply queued.replace inState sameTextures sameRaw
    · intro pending member
      rw [inserted, uploadTexture, BladeAtlasState.setSlot, initializations_setTextureList] at member
      exact Or.inl member
    · intro upload member
      rw [inserted, uploadTexture, BladeAtlasState.setSlot, uploads_setTextureList] at member
      rcases List.mem_append.mp member with before | last
      · exact Or.inl before
      · rcases List.mem_singleton.mp last with rfl
        exact Or.inr ⟨tileId, sameRaw.symm⟩

/-- A new texture has no keys, and is queued. -/
theorem Sound.push (sound : Sound state) {allocator : AtlasAllocator A} {minSize : Size Int}
    {ix : Nat} {texture : BladeAtlasTexture A} {after : BladeAtlasState Key A}
    (few : (state.textureList kind).textures.length < 2 ^ 32)
    (pushes : state.pushTexture allocator minSize kind = some (ix, texture, after)) :
    Sound after ∧ (Queued state → Queued after) := by
  rcases sound.pushTexture few pushes with
    ⟨lists, textures, vacant, noKeys, _, tiles, uploads, initializations⟩
  have unmapped : ∀ entry ∈ state.tilesByKey, entry.2.textureId ≠ texture.id := by
    intro entry member same
    have there := sound.placed member
    rw [same, vacant] at there
    cases there
  constructor
  · apply sound.of_update textures lists
    · rw [tiles]
      exact sound.unique
    · intro other _
      rw [keysOf, tiles, keysOf]
    · intro item same
      rcases Option.some.inj same with rfl
      rw [noKeys, keysOf, tiles, eq_comm, List.countP_eq_zero]
      intro entry member
      rw [decide_eq_true_eq]
      exact unmapped entry member
    · intro gone
      cases gone
    · intro entry member _
      rwa [tiles] at member
  · intro queued
    apply queued.of_update textures
    · intro pending member
      rw [initializations] at member
      rcases List.mem_append.mp member with before | last
      · refine Or.inl ⟨before, ?_⟩
        intro same
        rcases queued.initializations before with ⟨owner, owns, _⟩
        rw [same, vacant] at owns
        cases owns
      · rcases List.mem_singleton.mp last with rfl
        exact Or.inr ⟨texture, rfl, rfl, rfl⟩
    · intro upload member
      rw [uploads] at member
      refine Or.inl ⟨member, ?_⟩
      intro same
      rcases queued.uploads member with ⟨owner, owns, _⟩
      rw [same, vacant] at owns
      cases owns

section Keys

variable [DecidableEq Key]

theorem tile_eq_none_iff {key : Key} :
    state.tile key = none ↔ ∀ entry ∈ state.tilesByKey, entry.1 ≠ key := by
  rw [tile, Option.map_eq_none_iff, List.find?_eq_none]
  simp

theorem mem_of_tile {key : Key} {tile : AtlasTile} (mapped : state.tile key = some tile) :
    (key, tile) ∈ state.tilesByKey := by
  rcases Option.map_eq_some_iff.mp mapped with ⟨entry, found, rfl⟩
  have same : entry.1 = key := by
    simpa using List.find?_some found
  rw [← same]
  exact List.mem_of_find?_eq_some found

theorem Sound.getOrInsertWith (sound : Sound state) {allocator : AtlasAllocator A}
    {textureKind : Key → AtlasTextureKind} {key : Key} {build : Option (Size Int)}
    {after : BladeAtlasState Key A}
    (few : (state.textureList (textureKind key)).textures.length < 2 ^ 32)
    (inserts : state.getOrInsertWith textureKind allocator key build = some after) :
    Sound after ∧ (Queued state → Queued after) := by
  unfold BladeAtlasState.getOrInsertWith at inserts
  cases mapped : state.tile key with
  | some tile =>
      simp only [mapped] at inserts
      rcases Option.some.inj inserts with rfl
      exact ⟨sound, id⟩
  | none =>
      have absent := tile_eq_none_iff.1 mapped
      simp only [mapped] at inserts
      cases build with
      | none =>
          rcases Option.some.inj inserts with rfl
          exact ⟨sound, id⟩
      | some size =>
          rcases Option.bind_eq_some_iff.mp inserts with ⟨⟨tile, raw, middle⟩, allocates, same⟩
          rcases Option.some.inj same with rfl
          rw [BladeAtlasState.allocate] at allocates
          cases inOld : BladeAtlasTexture.allocateLast allocator size
              (state.textureList (textureKind key)).textures with
          | some placed =>
              rcases placed with ⟨ix, placedTile, changed⟩
              simp only [inOld] at allocates
              rcases Option.some.inj allocates with ⟨⟩
              rcases allocateLast_spec inOld with ⟨texture, found, takes⟩
              exact sound.insert absent found takes
          | none =>
              simp only [inOld] at allocates
              rcases Option.bind_eq_some_iff.mp allocates with
                ⟨⟨ix, texture, pushed⟩, pushes, more⟩
              rcases Option.bind_eq_some_iff.mp more with ⟨⟨newTile, changed⟩, takes, same⟩
              rcases Option.some.inj same with ⟨⟩
              rcases sound.pushTexture few pushes with ⟨_, _, _, _, found, tiles, _, _⟩
              rcases sound.push few pushes with ⟨soundPushed, queuedPushed⟩
              rw [← tiles] at absent
              rcases soundPushed.insert absent found takes with ⟨soundAfter, queuedAfter⟩
              exact ⟨soundAfter, fun queued => queuedAfter (queuedPushed queued)⟩

/-! ## Removing -/

/-- A key is taken out once. -/
theorem Sound.perm_filter (sound : Sound state) {key : Key} {tile : AtlasTile}
    (mapped : state.tile key = some tile) :
    state.tilesByKey.Perm
      ((key, tile) :: state.tilesByKey.filter fun entry => entry.1 ≠ key) := by
  have member := mem_of_tile mapped
  have distinct : state.tilesByKey.Nodup := List.Nodup.of_map Prod.fst sound.unique
  have filtered : state.tilesByKey.erase (key, tile) =
      state.tilesByKey.filter fun entry => entry.1 ≠ key := by
    rw [distinct.erase_eq_filter]
    apply List.filter_congr
    intro entry inMap
    rw [Bool.eq_iff_iff, bne_iff_ne, decide_eq_true_eq, not_iff_not]
    constructor
    · exact congrArg Prod.fst
    · exact List.inj_on_of_nodup_map sound.unique inMap member
  rw [← filtered]
  exact List.perm_cons_erase member

/-- The slot of a texture is written when a key of it has been forgotten. -/
theorem Sound.forget (sound : Sound state) {key : Key} {tile : AtlasTile}
    (mapped : state.tile key = some tile) {after : BladeAtlasState Key A}
    {texture : Option (BladeAtlasTexture A)}
    (textures : after.texture = Function.update state.texture tile.textureId texture)
    (lists : after.Slots)
    (tiles : after.tilesByKey = state.tilesByKey.filter fun entry => entry.1 ≠ key)
    (count : ∀ changed, texture = some changed →
      changed.liveAtlasKeys + 1 = state.keysOf tile.textureId)
    (last : texture = none → state.keysOf tile.textureId = 1) :
    Sound after := by
  have split : ∀ id, state.keysOf id =
      after.keysOf id + if tile.textureId = id then 1 else 0 := by
    intro id
    rw [keysOf, (sound.perm_filter mapped).countP_eq, List.countP_cons, keysOf, tiles]
    simp only [decide_eq_true_eq]
  have here := split tile.textureId
  rw [if_pos rfl] at here
  apply sound.of_update textures lists
  · rw [tiles]
    exact sound.unique.sublist (List.filter_sublist.map Prod.fst)
  · intro other different
    have elsewhere := split other
    rw [if_neg (Ne.symm different)] at elsewhere
    exact elsewhere.symm
  · intro changed same
    exact Nat.succ_injective ((count changed same).trans here)
  · intro gone
    exact Nat.succ_injective (here.symm.trans (last gone))
  · intro entry member _
    rw [tiles] at member
    exact List.mem_of_mem_filter member

/-- The key is the last one of its texture only if nothing is queued for the texture. -/
def Unqueued (state : BladeAtlasState Key A) (key : Key) : Prop :=
  ∀ tile, state.tile key = some tile → state.keysOf tile.textureId = 1 →
    (∀ pending ∈ state.initializations, pending.id ≠ tile.textureId) ∧
      ∀ upload ∈ state.uploads, upload.id ≠ tile.textureId

omit [DecidableEq Key] in
theorem decrementRefCount_spec {texture lowered : BladeAtlasTexture A}
    (decrements : texture.decrementRefCount = some lowered) :
    lowered.id = texture.id ∧ lowered.raw = texture.raw ∧
      lowered.liveAtlasKeys + 1 = texture.liveAtlasKeys := by
  rcases Option.ite_none_left_eq_some.mp decrements with ⟨referenced, ⟨⟩⟩
  exact ⟨rfl, rfl, Nat.sub_add_cancel (Nat.pos_of_ne_zero referenced)⟩

theorem Sound.remove (sound : Sound state) {key : Key} {after : BladeAtlasState Key A}
    (removes : state.remove key = some after) :
    Sound after ∧ (state.Unqueued key → Queued state → Queued after) := by
  unfold BladeAtlasState.remove at removes
  cases mapped : state.tile key with
  | none =>
      simp only [mapped] at removes
      rcases Option.some.inj removes with rfl
      exact ⟨sound, fun _ => id⟩
  | some tile =>
      rcases Option.isSome_iff_exists.mp (sound.placed (mem_of_tile mapped)) with ⟨texture, owns⟩
      change state.texture tile.textureId = some texture at owns
      have counted := sound.counts owns
      simp only [mapped, texture_withTiles, textureList_withTiles, owns] at removes
      rcases Option.bind_eq_some_iff.mp removes with ⟨lowered, decrements, rest⟩
      rcases decrementRefCount_spec decrements with ⟨sameId, sameRaw, fewer⟩
      have identified : lowered.id = tile.textureId := sameId.trans (sound.texture_id owns)
      let forgotten : BladeAtlasState Key A :=
        { state with tilesByKey := state.tilesByKey.filter fun entry => entry.1 ≠ key }
      have lists : forgotten.Slots := fun kind => by
        rw [textureList_withTiles]
        exact sound.lists kind
      have foundForgotten : forgotten.texture tile.textureId = some texture := by
        rw [texture_withTiles]
        exact owns
      by_cases unreferenced : lowered.isUnreferenced = true
      · have last : state.keysOf tile.textureId = 1 := by
          rw [← counted, ← fewer, of_decide_eq_true unreferenced]
        rw [if_pos unreferenced, identified] at rest
        rcases Option.some.inj rest with rfl
        rcases lists.dropSlot foundForgotten with ⟨listsAfter, textures⟩
        rw [texture_withTiles] at textures
        constructor
        · apply sound.forget mapped textures listsAfter (tilesByKey_setTextureList ..)
          · intro changed gone
            cases gone
          · exact fun _ => last
        · intro unqueued queued
          rcases unqueued tile mapped last with ⟨noPending, noUploads⟩
          apply queued.of_update textures
          · intro pending member
            rw [dropSlot, initializations_setTextureList] at member
            exact Or.inl ⟨member, noPending pending member⟩
          · intro upload member
            rw [dropSlot, uploads_setTextureList] at member
            exact Or.inl ⟨member, noUploads upload member⟩
      · rw [if_neg unreferenced] at rest
        rcases Option.some.inj rest with rfl
        rcases lists.setSlot foundForgotten identified with ⟨listsAfter, textures⟩
        rw [texture_withTiles] at textures
        constructor
        · apply sound.forget mapped textures listsAfter (tilesByKey_setTextureList ..)
          · intro changed same
            rcases Option.some.inj same with rfl
            exact fewer.trans counted
          · intro gone
            cases gone
        · intro _ queued
          apply queued.replace owns textures sameRaw
          · intro pending member
            rw [BladeAtlasState.setSlot, initializations_setTextureList] at member
            exact Or.inl member
          · intro upload member
            rw [BladeAtlasState.setSlot, uploads_setTextureList] at member
            exact Or.inl member

end Keys

/-! ## Flushing -/

theorem mapM_eq_some {α β γ : Type} {f : α → Option β} {g : β → γ} {h : α → γ} {items : List α}
    (all : ∀ item ∈ items, ∃ result, f item = some result ∧ g result = h item) :
    ∃ results, items.mapM f = some results ∧ results.map g = items.map h := by
  induction items with
  | nil => exact ⟨[], rfl, rfl⟩
  | cons item items ih =>
      rcases all item List.mem_cons_self with ⟨result, found, same⟩
      rcases ih fun other member => all other (List.mem_cons_of_mem _ member) with
        ⟨results, foundAll, sameAll⟩
      refine ⟨result :: results, ?_, ?_⟩
      · rw [List.mapM_cons, found, foundAll]
        rfl
      · rw [List.map_cons, List.map_cons, same, sameAll]

/-- The queues are empty afterwards. -/
def flushed (self : BladeAtlasState Key A) : BladeAtlasState Key A :=
  { self with initializations := [], uploads := [] }

theorem texture_flushed (self : BladeAtlasState Key A) : self.flushed.texture = self.texture := by
  funext id
  rcases id with ⟨index, kind⟩
  cases kind <;> rfl

/-- Every texture and every tile that was queued is flushed to the texture it was queued
for. -/
theorem Queued.flush (queued : Queued state) :
    state.flush = some (state.initializations.map PendingInitialization.raw,
      state.uploads.map (fun upload => (upload.raw, upload.bounds)), state.flushed) := by
  rcases mapM_eq_some (f := fun pending : PendingInitialization => state.texture pending.id)
    (g := BladeAtlasTexture.raw) (h := PendingInitialization.raw)
    fun _ => queued.initializations with ⟨textures, found, raws⟩
  have copies : ∀ upload ∈ state.uploads, ∃ copy, (do
      let texture ← state.texture upload.id
      return (texture.raw, upload.bounds)) = some copy ∧ id copy = (upload.raw, upload.bounds) := by
    intro upload member
    rcases queued.uploads member with ⟨texture, owns, raw⟩
    refine ⟨_, ?_, rfl⟩
    rw [owns, ← raw]
    rfl
  rcases mapM_eq_some copies with ⟨results, copied, same⟩
  rw [List.map_id] at same
  have sameTexture : ∀ id, ({ state with initializations := [] } : BladeAtlasState Key A).texture
      id = state.texture id := by
    rintro ⟨index, kind⟩
    cases kind <;> rfl
  rw [BladeAtlasState.flush, flushInitializations, found]
  simp only [Option.bind_eq_bind, Option.bind_some, Option.pure_def, raws, sameTexture]
  simp only [Option.bind_eq_bind, Option.pure_def] at copied
  rw [copied, same]
  rfl

theorem Sound.flushed (sound : Sound state) : Sound state.flushed where
  lists kind := by
    cases kind with
    | monochrome => exact sound.lists .monochrome
    | polychrome => exact sound.lists .polychrome
  unique := sound.unique
  counts found := by
    rw [texture_flushed] at found
    exact sound.counts found
  placed member := by
    rw [texture_flushed]
    exact sound.placed member

theorem queued_flushed : Queued state.flushed where
  initializations member := by cases member
  uploads member := by cases member

/-! ## Runs -/

variable [DecidableEq Key]

/-- What the atlas promises. -/
structure Integrity (state : BladeAtlasState Key A) : Prop where
  /-- The count of a texture is the number of keys that are mapped to it. -/
  counts : ∀ {kind texture}, some texture ∈ (state.textureList kind).textures →
    texture.liveAtlasKeys = state.keysOf texture.id
  /-- Every tile is in a texture whose identifier it has. -/
  tiles : ∀ {key tile}, state.tile key = some tile →
    ∃ texture, state.texture tile.textureId = some texture ∧ texture.id = tile.textureId
  /-- What is queued goes to the texture it was queued for. -/
  flush : state.flush = some (state.initializations.map PendingInitialization.raw,
    state.uploads.map (fun upload => (upload.raw, upload.bounds)), state.flushed)

theorem Sound.integrity (sound : Sound state) (queued : Queued state) : Integrity state where
  counts {kind texture} member := by
    rcases List.mem_iff_getElem?.mp member with ⟨ix, found⟩
    rcases (sound.lists kind).fits found with ⟨rfl, rfl⟩
    exact sound.counts (texture_eq_some_iff.2 found)
  tiles mapped := by
    rcases Option.isSome_iff_exists.mp (sound.placed (mem_of_tile mapped)) with ⟨texture, owns⟩
    exact ⟨texture, owns, sound.texture_id owns⟩
  flush := queued.flush

/-- A texture is dropped only when nothing is queued for it, and none is made when a list has
as many slots as there are identifiers. -/
def Careful (textureKind : Key → AtlasTextureKind) (state : BladeAtlasState Key A) :
    BladeAtlasCall Key → Prop
  | .getOrInsertWith key _ => (state.textureList (textureKind key)).textures.length < 2 ^ 32
  | .remove key => state.Unqueued key
  | .beforeFrame => True

theorem Sound.step {allocator : AtlasAllocator A} {textureKind : Key → AtlasTextureKind}
    {next : BladeAtlasState Key A} (sound : Sound state) (queued : Queued state)
    {call : BladeAtlasCall Key} (careful : state.Careful textureKind call)
    (steps : call.step textureKind allocator state = some next) : Sound next ∧ Queued next := by
  cases call with
  | getOrInsertWith key build =>
      rcases sound.getOrInsertWith careful steps with ⟨soundNext, keeps⟩
      exact ⟨soundNext, keeps queued⟩
  | remove key =>
      rcases sound.remove steps with ⟨soundNext, keeps⟩
      exact ⟨soundNext, keeps careful queued⟩
  | beforeFrame =>
      rw [BladeAtlasCall.step, queued.flush] at steps
      rcases Option.some.inj steps with rfl
      exact ⟨sound.flushed, queued_flushed⟩

theorem run_bladeIntegrity {allocator : AtlasAllocator A} {textureKind : Key → AtlasTextureKind}
    {calls : List (BladeAtlasCall Key)} {last : BladeAtlasState Key A}
    (run : Run (fun state call => call.step textureKind allocator state)
      (Careful textureKind) new calls last) : Integrity last := by
  have both : Sound last ∧ Queued last := by
    apply run.invariant fun _ state => Sound state ∧ Queued state
    · exact ⟨sound_new, queued_new⟩
    · exact fun both careful steps => both.1.step both.2 careful steps
  exact both.1.integrity both.2

/-- A slot that is used again after its uploads were flushed. -/
theorem run_bladeIntegrity_reused :
    ∃ last : BladeAtlasState Nat (List (Bounds Int)), Integrity last ∧
      last.uploads.map PendingUpload.raw = [1] := by
  have runs : ∃ last : BladeAtlasState Nat (List (Bounds Int)),
      Run (fun state call =>
          BladeAtlasCall.step (fun _ => .monochrome) MetalAtlasState.rowAllocator state call)
        (Careful fun _ => .monochrome) new
        [.getOrInsertWith (1 : Nat) (some (⟨8, 8⟩ : Size Int)), .beforeFrame, .remove 1,
          .getOrInsertWith 2 (some ⟨8, 8⟩)] last ∧
      last.uploads.map PendingUpload.raw = [1] := by
    refine ⟨_, .cons (show 0 < 2 ^ 32 by decide) rfl (.cons trivial rfl (.cons ?_ rfl
      (.cons (show 1 < 2 ^ 32 by decide) rfl .nil))), rfl⟩
    rintro tile - -
    constructor
    · intro pending member
      cases member
    · intro upload member
      cases member
  rcases runs with ⟨last, run, uploads⟩
  exact ⟨last, run_bladeIntegrity run, uploads⟩

/-- A texture that is dropped in the frame in which it was made is still queued. -/
theorem not_run_bladeIntegrity :
    ¬ ∀ (calls : List (BladeAtlasCall Nat)) (last : BladeAtlasState Nat (List (Bounds Int))),
      Run (fun state call =>
          call.step (fun _ => .monochrome) MetalAtlasState.rowAllocator state)
        (fun _ _ => True) new calls last → Integrity last := by
  intro integrity
  have removed : ∃ last : BladeAtlasState Nat (List (Bounds Int)),
      [BladeAtlasCall.getOrInsertWith 1 (some ⟨8, 8⟩), .remove 1].foldlM (fun state call =>
        BladeAtlasCall.step (fun _ => .monochrome) MetalAtlasState.rowAllocator state call) new =
        some last ∧ last.flush = none :=
    ⟨_, rfl, rfl⟩
  rcases removed with ⟨last, runs, fails⟩
  cases fails.symm.trans (integrity _ last (.of_foldlM runs)).flush

end BladeAtlasState

end Gpui
