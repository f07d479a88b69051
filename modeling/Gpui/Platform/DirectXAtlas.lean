import Gpui.Library.Tally
import Gpui.Library.Transition
import Gpui.Platform.AtlasIntegrity
import Gpui.Platform.AtlasSlots

/-!
# The sprite atlas of DirectX

Making a texture may fail: the device gives no texture, or no view of it.  A slot is taken
from the free list between the two, so a view that fails loses the slot.  Nothing else is
lost when a call fails.

The device and the allocator do what a call says of them; the bytes of an upload are left
out.
-/

namespace Gpui

open Gpui.Library

structure DirectXAtlasTexture (A : Type) where
  id : AtlasTextureId
  allocator : A
  liveAtlasKeys : Nat

structure DirectXAtlasState (Key A : Type) where
  monochromeTextures : AtlasTextureList (DirectXAtlasTexture A)
  polychromeTextures : AtlasTextureList (DirectXAtlasTexture A)
  tilesByKey : List (Key × AtlasTile)

/-- What the device and the allocator do in a call. -/
structure DirectXDevice (A : Type) where
  createTexture2D : Bool
  createShaderResourceView : Bool
  allocator : AtlasAllocator A

namespace DirectXAtlasTexture

variable {A : Type}

def allocate (allocator : AtlasAllocator A) (size : Size Int) (self : DirectXAtlasTexture A) :
    Option (AtlasTile × DirectXAtlasTexture A) := do
  let (allocation, after) ← allocator.allocate self.allocator size
  let tile : AtlasTile :=
    { textureId := self.id
      tileId := allocation.id
      padding := 0
      bounds := ⟨allocation.rectangle.origin, size⟩ }
  return (tile, { self with allocator := after, liveAtlasKeys := self.liveAtlasKeys + 1 })

def decrementRefCount (self : DirectXAtlasTexture A) : Option (DirectXAtlasTexture A) :=
  if self.liveAtlasKeys = 0 then none
  else some { self with liveAtlasKeys := self.liveAtlasKeys - 1 }

def isUnreferenced (self : DirectXAtlasTexture A) : Bool :=
  self.liveAtlasKeys = 0

end DirectXAtlasTexture

namespace DirectXAtlasState

variable {Key A : Type}

def new : DirectXAtlasState Key A :=
  ⟨.empty, .empty, []⟩

def textureList (self : DirectXAtlasState Key A) : TextureLists (DirectXAtlasTexture A)
  | .monochrome => self.monochromeTextures
  | .polychrome => self.polychromeTextures

def setTextureList (self : DirectXAtlasState Key A) (kind : AtlasTextureKind)
    (list : AtlasTextureList (DirectXAtlasTexture A)) : DirectXAtlasState Key A :=
  match kind with
  | .monochrome => { self with monochromeTextures := list }
  | .polychrome => { self with polychromeTextures := list }

/-- `texture`, which unwraps the slot. -/
def texture (self : DirectXAtlasState Key A) (id : AtlasTextureId) :
    Option (DirectXAtlasTexture A) :=
  self.textureList.texture id

/-- The texture for a slot: large enough for what is to be placed, within the limits. -/
def atlasTexture (device : DirectXDevice A) (minSize : Size Int) (kind : AtlasTextureKind)
    (ix : Nat) : DirectXAtlasTexture A :=
  let size : Size Int :=
    ⟨max (min minSize.width 16384) 1024, max (min minSize.height 16384) 1024⟩
  { id := ⟨UInt32.ofNat ix, kind⟩
    allocator := device.allocator.new size
    liveAtlasKeys := 0 }

/-- `push_texture`: the slot of the new texture, if there is one, and the list after. -/
def pushTexture (device : DirectXDevice A) (list : AtlasTextureList (DirectXAtlasTexture A))
    (minSize : Size Int) (kind : AtlasTextureKind) :
    Option (Option Nat × AtlasTextureList (DirectXAtlasTexture A)) :=
  if device.createTexture2D then
    let index := list.freeList.getLast?
    let list := { list with freeList := list.freeList.dropLast }
    if device.createShaderResourceView then
      let texture := atlasTexture device minSize kind (index.getD list.textures.length)
      match index with
      | some ix =>
          if ix < list.textures.length then
            some (some ix, { list with textures := list.textures.set ix (some texture) })
          else none
      | none =>
          some (some list.textures.length,
            { list with textures := list.textures ++ [some texture] })
    else some (none, list)
  else some (none, list)

/-- The slot is written. -/
def setSlot (self : DirectXAtlasState Key A) (kind : AtlasTextureKind) (ix : Nat)
    (texture : DirectXAtlasTexture A) : DirectXAtlasState Key A :=
  self.setTextureList kind { self.textureList kind with
    textures := (self.textureList kind).textures.set ix (some texture) }

/-- `allocate`: no tile where there is no texture, or no room in a new one. -/
def allocate (device : DirectXDevice A) (self : DirectXAtlasState Key A) (size : Size Int)
    (textureKind : AtlasTextureKind) : Option (Option AtlasTile × DirectXAtlasState Key A) :=
  match allocateLast (DirectXAtlasTexture.allocate device.allocator size)
      (self.textureList textureKind).textures with
  | some (ix, tile, texture) => some (some tile, self.setSlot textureKind ix texture)
  | none => do
      let (pushed, list) ← pushTexture device (self.textureList textureKind) size textureKind
      let self := self.setTextureList textureKind list
      match pushed with
      | none => return (none, self)
      | some ix =>
          let texture ← (list.textures[ix]?).join
          match texture.allocate device.allocator size with
          | some (tile, texture) => return (some tile, self.setSlot textureKind ix texture)
          | none => return (none, self)

variable [DecidableEq Key]

def tile (self : DirectXAtlasState Key A) (key : Key) : Option AtlasTile :=
  valueOf self.tilesByKey key

/-- `get_or_insert_with`, where `build` fails, gives nothing, or gives a size. -/
def getOrInsertWith (textureKind : Key → AtlasTextureKind) (self : DirectXAtlasState Key A)
    (key : Key) (build : Except String (Option (Size Int))) (device : DirectXDevice A) :
    Option (Except String (Option AtlasTile) × DirectXAtlasState Key A) :=
  match self.tile key with
  | some tile => some (.ok (some tile), self)
  | none =>
      match build with
      | .error message => some (.error message, self)
      | .ok none => some (.ok none, self)
      | .ok (some size) => do
          let (tile, self) ← self.allocate device size (textureKind key)
          match tile with
          | none => return (.error "failed to allocate", self)
          | some tile =>
              -- The texture the tile is uploaded to.
              let _ ← self.texture tile.textureId
              return (.ok (some tile),
                { self with tilesByKey := (key, tile) :: self.tilesByKey })

def remove (self : DirectXAtlasState Key A) (key : Key) : Option (DirectXAtlasState Key A) :=
  match self.tile key with
  | none => some self
  | some tile =>
      let self := { self with tilesByKey := self.tilesByKey.filter fun entry => entry.1 ≠ key }
      let id := tile.textureId
      let list := self.textureList id.kind
      match (list.textures[id.index.toNat]?).join with
      | none => some self
      | some texture => do
          let texture ← texture.decrementRefCount
          if texture.isUnreferenced then
            let self := self.setTextureList id.kind
              ⟨list.textures.set id.index.toNat none, list.freeList ++ [texture.id.index.toNat]⟩
            return { self with
              tilesByKey := self.tilesByKey.filter fun entry => entry.1 ≠ key }
          else return self.setSlot id.kind id.index.toNat texture

def handleDeviceLost (_ : DirectXAtlasState Key A) : DirectXAtlasState Key A :=
  ⟨.empty, .empty, []⟩

end DirectXAtlasState

inductive DirectXAtlasCall (Key A : Type) where
  | getOrInsertWith (key : Key) (build : Except String (Option (Size Int)))
      (device : DirectXDevice A)
  | remove (key : Key)
  | handleDeviceLost

/-- What a call returns, and the atlas afterwards. -/
def DirectXAtlasCall.perform {Key A : Type} [DecidableEq Key]
    (textureKind : Key → AtlasTextureKind) (state : DirectXAtlasState Key A) :
    DirectXAtlasCall Key A → Option (Except String (Option AtlasTile) × DirectXAtlasState Key A)
  | .getOrInsertWith key build device => state.getOrInsertWith textureKind key build device
  | .remove key => (state.remove key).map fun after => (.ok none, after)
  | .handleDeviceLost => some (.ok none, state.handleDeviceLost)

namespace DirectXAtlasState

variable {Key A : Type} {state : DirectXAtlasState Key A} {kind : AtlasTextureKind}

/-! ## One texture at a time -/

@[simp]
theorem textureList_setTextureList (self : DirectXAtlasState Key A) (kind : AtlasTextureKind)
    (list : AtlasTextureList (DirectXAtlasTexture A)) :
    (self.setTextureList kind list).textureList =
      Function.update self.textureList kind list := by
  funext other
  cases kind <;> cases other <;> rfl

@[simp]
theorem tilesByKey_setTextureList (self : DirectXAtlasState Key A) (kind : AtlasTextureKind)
    (list : AtlasTextureList (DirectXAtlasTexture A)) :
    (self.setTextureList kind list).tilesByKey = self.tilesByKey := by
  cases kind <;> rfl

@[simp]
theorem textureList_withTiles (self : DirectXAtlasState Key A)
    (tilesByKey : List (Key × AtlasTile)) :
    ({ self with tilesByKey } : DirectXAtlasState Key A).textureList = self.textureList := by
  funext kind
  cases kind <;> rfl

@[simp]
theorem texture_withTiles (self : DirectXAtlasState Key A) (tilesByKey : List (Key × AtlasTile)) :
    ({ self with tilesByKey } : DirectXAtlasState Key A).texture = self.texture := by
  funext id
  rw [DirectXAtlasState.texture, textureList_withTiles, DirectXAtlasState.texture]

/-- Textures are where their identifiers say, the free lists have the empty slots, and every
texture counts its keys. -/
structure Sound (state : DirectXAtlasState Key A) : Prop where
  identified : state.textureList.Identified DirectXAtlasTexture.id
  tallied : Tallied state.texture DirectXAtlasTexture.liveAtlasKeys AtlasTile.textureId
    state.tilesByKey

theorem sound_new : Sound (new : DirectXAtlasState Key A) where
  identified kind := by cases kind <;> exact Slotted.empty _
  tallied := by
    have noTexture : (new : DirectXAtlasState Key A).texture = fun _ => none := by
      funext id
      rcases id with ⟨index, kind⟩
      cases kind <;> rfl
    rw [noTexture]
    exact Tallied.empty _ _

/-- Every texture and every key is as before; there may be a new texture. -/
structure Unchanged (state after : DirectXAtlasState Key A) : Prop where
  tiles : after.tilesByKey = state.tilesByKey
  textures : ∀ {id texture}, state.texture id = some texture → after.texture id = some texture

theorem Unchanged.refl (state : DirectXAtlasState Key A) : Unchanged state state where
  tiles := rfl
  textures found := found

/-! ## Making a texture -/

/-- What `push_texture` needs: an identifier is left for the slot, and the view is given if
the slot comes from the free list. -/
structure Pushes (device : DirectXDevice A)
    (list : AtlasTextureList (DirectXAtlasTexture A)) : Prop where
  few : list.textures.length < 2 ^ 32
  view : device.createTexture2D = true → device.createShaderResourceView = false →
    list.freeList = []

theorem identifier_atlasTexture {device : DirectXDevice A} {minSize : Size Int} {ix : Nat}
    (few : ix < 2 ^ 32) : (atlasTexture device minSize kind ix).id.index.toNat = ix := by
  change (UInt32.ofNat ix).toNat = ix
  rw [UInt32.toNat_ofNat']
  exact Nat.mod_eq_of_lt few

/-- A texture without keys has been put into a slot of its kind. -/
structure Pushed (state : DirectXAtlasState Key A) (kind : AtlasTextureKind)
    (texture : DirectXAtlasTexture A) (after : DirectXAtlasState Key A) : Prop where
  kind : texture.id.kind = kind
  noKeys : texture.liveAtlasKeys = 0
  vacant : state.texture texture.id = none
  identified : after.textureList.Identified DirectXAtlasTexture.id
  textures : after.texture = Function.update state.texture texture.id (some texture)

/-- The list of the texture's kind has been replaced. -/
theorem Pushed.of_update {texture : DirectXAtlasTexture A}
    {list : AtlasTextureList (DirectXAtlasTexture A)} (isKind : texture.id.kind = kind)
    (noKeys : texture.liveAtlasKeys = 0)
    (filled : state.textureList.texture texture.id = none ∧
      TextureLists.Identified DirectXAtlasTexture.id
        (Function.update state.textureList texture.id.kind list) ∧
      TextureLists.texture (Function.update state.textureList texture.id.kind list) =
        Function.update state.textureList.texture texture.id (some texture)) :
    Pushed state kind texture (state.setTextureList kind list) where
  kind := isKind
  noKeys := noKeys
  vacant := filled.1
  identified := by
    rw [textureList_setTextureList, ← isKind]
    exact filled.2.1
  textures := by
    unfold DirectXAtlasState.texture
    rw [textureList_setTextureList, ← isKind]
    exact filled.2.2

/-- A texture is made in a slot that was empty or not there, or nothing has changed. -/
theorem Sound.pushTexture (sound : Sound state) {device : DirectXDevice A} (minSize : Size Int)
    (pushes : Pushes device (state.textureList kind)) :
    pushTexture device (state.textureList kind) minSize kind =
        some (none, state.textureList kind) ∨
      ∃ texture list,
        pushTexture device (state.textureList kind) minSize kind =
          some (some texture.id.index.toNat, list) ∧
        Pushed state kind texture (state.setTextureList kind list) := by
  have slotted := sound.identified kind
  unfold DirectXAtlasState.pushTexture
  by_cases made : device.createTexture2D = true
  · simp only [if_pos made]
    by_cases viewed : device.createShaderResourceView = true
    · right
      simp only [if_pos viewed]
      cases top : (state.textureList kind).freeList.getLast? with
      | some slot =>
          rcases List.getLast?_eq_some_iff.mp top with ⟨front, split⟩
          have within := (List.getElem?_eq_some_iff.mp (slotted.vacant split)).1
          let texture := atlasTexture device minSize kind slot
          have index : texture.id.index.toNat = slot :=
            identifier_atlasTexture (within.trans pushes.few)
          have isKind : texture.id.kind = kind := rfl
          have noKeys : texture.liveAtlasKeys = 0 := rfl
          apply Exists.intro texture
          apply Exists.intro
            ⟨(state.textureList kind).textures.set slot (some texture), front⟩
          constructor
          · rw [split, index, List.dropLast_concat]
            exact if_pos within
          · apply Pushed.of_update isKind noKeys
            apply sound.identified.fill front
            · rw [index]
              exact split
            · rfl
            · rw [index]
              rfl
      | none =>
          let texture := atlasTexture device minSize kind (state.textureList kind).textures.length
          have index : texture.id.index.toNat = (state.textureList kind).textures.length :=
            identifier_atlasTexture pushes.few
          have isKind : texture.id.kind = kind := rfl
          have noKeys : texture.liveAtlasKeys = 0 := rfl
          have noneFree := List.getLast?_eq_none_iff.mp top
          apply Exists.intro texture
          apply Exists.intro { state.textureList kind with
            textures := (state.textureList kind).textures ++ [some texture] }
          constructor
          · simp only [index, noneFree, Option.getD_none, List.dropLast_nil]
            rfl
          · apply Pushed.of_update isKind noKeys
            exact sound.identified.grow noneFree index rfl rfl
    · left
      have empty := pushes.view made (Bool.eq_false_of_not_eq_true viewed)
      simp only [if_neg viewed, empty, List.dropLast_nil]
      rw [← empty]
  · left
    simp only [if_neg made]

theorem Pushed.sound (sound : Sound state) {texture : DirectXAtlasTexture A}
    {after : DirectXAtlasState Key A} (pushed : Pushed state kind texture after)
    (tiles : after.tilesByKey = state.tilesByKey) : Sound after where
  identified := pushed.identified
  tallied := by
    rw [pushed.textures, tiles]
    exact sound.tallied.insertItem pushed.vacant pushed.noKeys

theorem Pushed.unchanged {texture : DirectXAtlasTexture A} {after : DirectXAtlasState Key A}
    (pushed : Pushed state kind texture after)
    (tiles : after.tilesByKey = state.tilesByKey) : Unchanged state after where
  tiles := tiles
  textures {id found} inState := by
    have other : id ≠ texture.id := by
      intro same
      rw [same, pushed.vacant] at inState
      cases inState
    rw [pushed.textures, Function.update_of_ne other]
    exact inState

/-! ## Placing a tile -/

theorem allocate_spec {allocator : AtlasAllocator A} {texture changed : DirectXAtlasTexture A}
    {size : Size Int} {tile : AtlasTile}
    (allocates : texture.allocate allocator size = some (tile, changed)) :
    tile.textureId = texture.id ∧ changed.id = texture.id ∧
      changed.liveAtlasKeys = texture.liveAtlasKeys + 1 := by
  rcases Option.bind_eq_some_iff.mp allocates with ⟨⟨allocation, after⟩, _, same⟩
  rcases Option.some.inj same with ⟨⟩
  exact ⟨rfl, rfl, rfl⟩

/-- The tile is in the texture it names, which counts the key that is to come. -/
structure Placed (state : DirectXAtlasState Key A) (tile : AtlasTile)
    (after : DirectXAtlasState Key A) : Prop where
  exists_texture : ∃ texture, after.texture tile.textureId = some texture
  tiles : after.tilesByKey = state.tilesByKey
  mapped : ∀ {key}, (∀ entry ∈ state.tilesByKey, entry.1 ≠ key) →
    Sound { after with tilesByKey := (key, tile) :: state.tilesByKey }

theorem Sound.place (sound : Sound state) {ix : Nat} {size : Size Int}
    {allocator : AtlasAllocator A} {tile : AtlasTile} {texture changed : DirectXAtlasTexture A}
    (found : (state.textureList kind).textures[ix]? = some (some texture))
    (allocates : texture.allocate allocator size = some (tile, changed)) :
    Placed state tile (state.setSlot kind ix changed) := by
  rcases allocate_spec allocates with ⟨tileId, changedId, counted⟩
  rcases (sound.identified kind).fits found with ⟨rfl, rfl⟩
  have inState : state.texture texture.id = some texture :=
    TextureLists.texture_eq_some_iff.2 found
  rcases sound.identified.replace inState changedId rfl with ⟨identified, textures⟩
  have after : (state.setSlot texture.id.kind texture.id.index.toNat changed).texture =
      Function.update state.texture tile.textureId (some changed) := by
    unfold DirectXAtlasState.texture
    rw [setSlot, textureList_setTextureList, textures, tileId]
  constructor
  · apply Exists.intro changed
    rw [after, Function.update_self]
  · exact tilesByKey_setTextureList _ _ _
  · intro key absent
    constructor
    · rw [textureList_withTiles, setSlot, textureList_setTextureList]
      exact identified
    · rw [texture_withTiles, after]
      apply sound.tallied.insertEntry absent
      · rw [tileId]
        exact inState
      · exact counted

/-- A tile is placed, or every texture is as before. -/
theorem Sound.allocate (sound : Sound state) {device : DirectXDevice A} {size : Size Int}
    (pushes : (∀ texture, some texture ∈ (state.textureList kind).textures →
      texture.allocate device.allocator size = none) → Pushes device (state.textureList kind)) :
    (∃ tile after, state.allocate device size kind = some (some tile, after) ∧
      Placed state tile after) ∨
    ∃ after, state.allocate device size kind = some (none, after) ∧
      Sound after ∧ Unchanged state after := by
  unfold DirectXAtlasState.allocate
  cases inOld : allocateLast (DirectXAtlasTexture.allocate device.allocator size)
      (state.textureList kind).textures with
  | some found =>
      rcases found with ⟨ix, tile, changed⟩
      rcases allocateLast_eq_some inOld with ⟨texture, inSlot, takes⟩
      left
      exact ⟨tile, _, rfl, sound.place inSlot takes⟩
  | none =>
      rcases sound.pushTexture size (pushes (allocateLast_eq_none inOld)) with
        fails | ⟨texture, list, made, pushed⟩
      · right
        have same : state.setTextureList kind (state.textureList kind) = state := by
          cases kind <;> rfl
        apply Exists.intro state
        constructor
        · simp only [fails, Option.bind_eq_bind, Option.bind_some, same]
          rfl
        · exact ⟨sound, .refl state⟩
      · have tiles := tilesByKey_setTextureList state kind list
        have inSlot : list.textures[texture.id.index.toNat]? = some (some texture) := by
          have there : (state.setTextureList kind list).texture texture.id = some texture := by
            rw [pushed.textures, Function.update_self]
          have found := TextureLists.texture_eq_some_iff.1 there
          rw [textureList_setTextureList, pushed.kind, Function.update_self] at found
          exact found
        simp only [made, Option.bind_eq_bind, Option.bind_some, inSlot, Option.join_some]
        cases takes : texture.allocate device.allocator size with
        | some placed =>
            rcases placed with ⟨tile, changed⟩
            left
            have soundPushed := pushed.sound sound tiles
            have found : ((state.setTextureList kind list).textureList kind).textures[
                texture.id.index.toNat]? = some (some texture) := by
              rw [textureList_setTextureList, Function.update_self]
              exact inSlot
            have placed := soundPushed.place found takes
            apply Exists.intro tile
            apply Exists.intro ((state.setTextureList kind list).setSlot kind
              texture.id.index.toNat changed)
            constructor
            · rfl
            · constructor
              · exact placed.exists_texture
              · exact placed.tiles.trans tiles
              · intro key absent
                rw [← tiles] at absent ⊢
                exact placed.mapped absent
        | none =>
            right
            exact ⟨_, rfl, pushed.sound sound tiles, pushed.unchanged tiles⟩

section Keys

variable [DecidableEq Key]

/-- No tile is returned. -/
def Failed (result : Except String (Option AtlasTile)) : Prop :=
  ∀ tile, result ≠ .ok (some tile)

/-- What a call needs: where a texture has to be made, an identifier is left for it, and the
view of it does not fail after a slot was taken from the free list. -/
def Careful (textureKind : Key → AtlasTextureKind) (state : DirectXAtlasState Key A) :
    DirectXAtlasCall Key A → Prop
  | .getOrInsertWith key build device =>
      ∀ size, state.tile key = none → build = .ok (some size) →
        (∀ texture, some texture ∈ (state.textureList (textureKind key)).textures →
          texture.allocate device.allocator size = none) →
        Pushes device (state.textureList (textureKind key))
  | .remove _ => True
  | .handleDeviceLost => True

theorem Sound.getOrInsertWith (sound : Sound state) {textureKind : Key → AtlasTextureKind}
    {key : Key} {build : Except String (Option (Size Int))} {device : DirectXDevice A}
    (careful : state.Careful textureKind (.getOrInsertWith key build device)) :
    ∃ result after, state.getOrInsertWith textureKind key build device = some (result, after) ∧
      Sound after ∧ (Failed result → Unchanged state after) := by
  unfold DirectXAtlasState.getOrInsertWith
  cases mapped : state.tile key with
  | some tile => exact ⟨_, _, rfl, sound, fun _ => .refl state⟩
  | none =>
      cases build with
      | error message => exact ⟨_, _, rfl, sound, fun _ => .refl state⟩
      | ok size? =>
          cases size? with
          | none => exact ⟨_, _, rfl, sound, fun _ => .refl state⟩
          | some size =>
              rcases sound.allocate (careful size mapped rfl) with
                ⟨tile, after, allocates, placed⟩ | ⟨after, allocates, soundAfter, unchanged⟩
              · rcases placed.exists_texture with ⟨texture, owns⟩
                apply Exists.intro (.ok (some tile))
                apply Exists.intro
                  { after with tilesByKey := (key, tile) :: after.tilesByKey }
                constructor
                · simp only [allocates, Option.bind_eq_bind, Option.bind_some, owns]
                  rfl
                · constructor
                  · rw [placed.tiles]
                    exact placed.mapped (valueOf_eq_none_iff.1 mapped)
                  · intro failed
                    exact absurd rfl (failed tile)
              · apply Exists.intro (.error "failed to allocate")
                apply Exists.intro after
                constructor
                · simp only [allocates, Option.bind_eq_bind, Option.bind_some]
                  rfl
                · exact ⟨soundAfter, fun _ => unchanged⟩

/-! ## Removing -/

omit [DecidableEq Key] in
theorem decrementRefCount_spec {texture lowered : DirectXAtlasTexture A}
    (decrements : texture.decrementRefCount = some lowered) :
    lowered.id = texture.id ∧ lowered.liveAtlasKeys + 1 = texture.liveAtlasKeys := by
  rcases Option.ite_none_left_eq_some.mp decrements with ⟨referenced, ⟨⟩⟩
  exact ⟨rfl, Nat.sub_add_cancel (Nat.pos_of_ne_zero referenced)⟩

/-- The slot of a texture is written when a key of it has been forgotten. -/
theorem Sound.forget (sound : Sound state) {key : Key} {tile : AtlasTile}
    (member : (key, tile) ∈ state.tilesByKey) {texture : DirectXAtlasTexture A}
    (owns : state.texture tile.textureId = some texture)
    (changed : Option (DirectXAtlasTexture A)) {after : DirectXAtlasState Key A}
    (slots : after.textureList.Identified DirectXAtlasTexture.id)
    (textures : after.texture = Function.update state.texture tile.textureId changed)
    (tiles : after.tilesByKey = state.tilesByKey.filter fun entry => entry.1 ≠ key)
    (counted : ∀ left ∈ changed, left.liveAtlasKeys + 1 = texture.liveAtlasKeys)
    (last : changed = none → texture.liveAtlasKeys = 1) : Sound after where
  identified := slots
  tallied := by
    rw [textures, tiles]
    exact sound.tallied.removeEntry member owns counted last

theorem Sound.remove (sound : Sound state) (key : Key) :
    ∃ after, state.remove key = some after ∧ Sound after := by
  unfold DirectXAtlasState.remove
  cases mapped : state.tile key with
  | none => exact ⟨state, rfl, sound⟩
  | some tile =>
      have member := mem_of_valueOf mapped
      rcases sound.tallied.placed member with ⟨texture, owns⟩
      have identified := sound.identified.identifier_eq owns
      have positive := sound.tallied.tally_pos member owns
      rcases lower : texture.decrementRefCount with _ | lowered
      · rw [DirectXAtlasTexture.decrementRefCount, if_neg positive.ne'] at lower
        cases lower
      · rcases decrementRefCount_spec lower with ⟨sameId, fewer⟩
        have inSlot : ((state.textureList tile.textureId.kind).textures[
            tile.textureId.index.toNat]?).join = some texture := owns
        simp only [textureList_withTiles, inSlot, Option.bind_eq_bind, lower, Option.bind_some]
        by_cases unreferenced : lowered.isUnreferenced = true
        · rw [if_pos unreferenced, sameId, identified]
          rcases sound.identified.drop owns rfl with ⟨slots, textures⟩
          apply Exists.intro
          constructor
          · rfl
          · apply sound.forget member owns none
            · rw [textureList_withTiles, textureList_setTextureList, textureList_withTiles]
              exact slots
            · unfold DirectXAtlasState.texture
              rw [textureList_withTiles, textureList_setTextureList, textureList_withTiles]
              exact textures
            · change List.filter _ (setTextureList _ _ _).tilesByKey = _
              rw [tilesByKey_setTextureList, List.filter_filter]
              simp only [Bool.and_self]
            · intro left gone
              cases gone
            · intro _
              rw [← fewer, of_decide_eq_true unreferenced]
        · rw [if_neg unreferenced]
          rcases sound.identified.replace owns (sameId.trans identified) rfl with
            ⟨slots, textures⟩
          apply Exists.intro
          constructor
          · rfl
          · apply sound.forget member owns (some lowered)
            · rw [setSlot, textureList_setTextureList, textureList_withTiles]
              exact slots
            · unfold DirectXAtlasState.texture
              rw [setSlot, textureList_setTextureList, textureList_withTiles]
              exact textures
            · rw [setSlot, tilesByKey_setTextureList]
            · intro left isLeft
              cases Option.mem_some_iff.mp isLeft
              exact fewer
            · intro gone
              cases gone

/-! ## Runs -/

/-- What the atlas promises. -/
structure Intact (state : DirectXAtlasState Key A) : Prop where
  /-- The texture of a mapped tile is there. -/
  tiles : ∀ {key tile}, state.tile key = some tile →
    ∃ texture, state.texture tile.textureId = some texture
  /-- The count of a texture is the number of keys that are mapped to it. -/
  counts : ∀ {kind texture}, some texture ∈ (state.textureList kind).textures →
    texture.liveAtlasKeys = entriesIn AtlasTile.textureId state.tilesByKey texture.id
  /-- Every empty slot is in the free list once. -/
  free : ∀ {kind ix}, (state.textureList kind).textures[ix]? = some none →
    (state.textureList kind).freeList.count ix = 1

theorem Sound.intact (sound : Sound state) : Intact state where
  tiles mapped := sound.tallied.placed (mem_of_valueOf mapped)
  counts {kind texture} member := by
    rcases List.mem_iff_getElem?.mp member with ⟨ix, found⟩
    rcases (sound.identified kind).fits found with ⟨rfl, rfl⟩
    exact sound.tallied.counts (TextureLists.texture_eq_some_iff.2 found)
  free {kind ix} isEmpty := by
    have slotted := sound.identified kind
    exact List.count_eq_one_of_mem slotted.nodup ((slotted.free ix).mpr isEmpty)

/-- A call does not panic and leaves the atlas intact, and changes neither keys nor counts
where it returns no tile. -/
def KeepsIntact (textureKind : Key → AtlasTextureKind) (state : DirectXAtlasState Key A)
    (call : DirectXAtlasCall Key A) : Prop :=
  ∃ result after, call.perform textureKind state = some (result, after) ∧ Intact after ∧
    ∀ key build device, call = .getOrInsertWith key build device → Failed result →
      Unchanged state after

theorem Sound.perform (sound : Sound state) {textureKind : Key → AtlasTextureKind}
    {call : DirectXAtlasCall Key A} (careful : state.Careful textureKind call) :
    ∃ result after, call.perform textureKind state = some (result, after) ∧ Sound after ∧
      ∀ key build device, call = .getOrInsertWith key build device → Failed result →
        Unchanged state after := by
  cases call with
  | getOrInsertWith key build device =>
      rcases sound.getOrInsertWith careful with ⟨result, after, performs, soundAfter, failed⟩
      exact ⟨result, after, performs, soundAfter, fun _ _ _ _ => failed⟩
  | remove key =>
      rcases sound.remove key with ⟨after, removes, soundAfter⟩
      apply Exists.intro (.ok none)
      apply Exists.intro after
      constructor
      · rw [DirectXAtlasCall.perform, removes]
        rfl
      · exact ⟨soundAfter, nofun⟩
  | handleDeviceLost => exact ⟨.ok none, new, rfl, sound_new, nofun⟩

/-- One call of a run. -/
def step (textureKind : Key → AtlasTextureKind) (state : DirectXAtlasState Key A)
    (call : DirectXAtlasCall Key A) : Option (DirectXAtlasState Key A) :=
  (call.perform textureKind state).map Prod.snd

/-- In a run whose calls lose no slot, everything stays intact, and every further such call
keeps it so. -/
theorem run_keepsIntact {textureKind : Key → AtlasTextureKind}
    {calls : List (DirectXAtlasCall Key A)} {last : DirectXAtlasState Key A}
    (run : Run (step textureKind) (Careful textureKind) new calls last) :
    Intact last ∧ ∀ call, last.Careful textureKind call → KeepsIntact textureKind last call := by
  have sound : Sound last := by
    apply run.invariant fun _ state => Sound state
    · exact sound_new
    · intro _ state call next sound careful steps
      rcases sound.perform careful with ⟨result, after, performs, soundAfter, _⟩
      rw [step, performs] at steps
      rcases Option.some.inj steps with rfl
      exact soundAfter
  constructor
  · exact sound.intact
  · intro call careful
    rcases sound.perform careful with ⟨result, after, performs, soundAfter, failed⟩
    exact ⟨result, after, performs, soundAfter.intact, failed⟩

/-- A device that gives textures, and views of them or not. -/
def rowDevice (createShaderResourceView : Bool) : DirectXDevice (List (Bounds Int)) where
  createTexture2D := true
  createShaderResourceView := createShaderResourceView
  allocator := MetalAtlasState.rowAllocator

/-- A key that takes the slot that another has left. -/
theorem run_keepsIntact_reused :
    ∃ last : DirectXAtlasState Nat (List (Bounds Int)), (Intact last ∧
      ∀ call, last.Careful (fun _ => .monochrome) call →
        KeepsIntact (fun _ => .monochrome) last call) ∧
      (last.tile 2).map AtlasTile.bounds = some ⟨⟨0, 0⟩, ⟨8, 8⟩⟩ := by
  have viewed (list : AtlasTextureList (DirectXAtlasTexture (List (Bounds Int))))
      (few : list.textures.length < 2 ^ 32) : Pushes (rowDevice true) list :=
    ⟨few, fun _ noView => absurd noView (by decide)⟩
  have runs : ∃ last : DirectXAtlasState Nat (List (Bounds Int)),
      Run (step fun _ => .monochrome) (Careful fun _ => .monochrome) new
        [.getOrInsertWith (1 : Nat) (.ok (some (⟨8, 8⟩ : Size Int))) (rowDevice true), .remove 1,
          .getOrInsertWith 2 (.ok (some ⟨8, 8⟩)) (rowDevice true)] last ∧
      (last.tile 2).map AtlasTile.bounds = some ⟨⟨0, 0⟩, ⟨8, 8⟩⟩ :=
    ⟨_, .cons (fun _ _ _ _ => viewed _ (by decide)) rfl (.cons trivial rfl
      (.cons (fun _ _ _ _ => viewed _ (by decide)) rfl .nil)), rfl⟩
  rcases runs with ⟨last, run, placed⟩
  exact ⟨last, run_keepsIntact run, placed⟩

/-- A slot that was left is taken for a texture whose view then fails. -/
theorem not_run_keepsIntact :
    ¬ ∀ (calls : List (DirectXAtlasCall Nat (List (Bounds Int))))
      (last : DirectXAtlasState Nat (List (Bounds Int))),
      Run (step fun _ => .monochrome) (fun _ _ => True) new calls last →
        Intact last ∧ ∀ call, KeepsIntact (fun _ => .monochrome) last call := by
  intro keeps
  have lost : ∃ last : DirectXAtlasState Nat (List (Bounds Int)),
      [DirectXAtlasCall.getOrInsertWith 1 (.ok (some ⟨8, 8⟩)) (rowDevice true), .remove 1,
        .getOrInsertWith 2 (.ok (some ⟨8, 8⟩)) (rowDevice false)].foldlM
          (step fun _ => .monochrome) new = some last ∧
      (last.textureList .monochrome).textures[0]? = some none ∧
      (last.textureList .monochrome).freeList = [] :=
    ⟨_, rfl, rfl, rfl⟩
  rcases lost with ⟨last, runs, isEmpty, noneFree⟩
  have once := (keeps _ last (.of_foldlM runs)).1.free isEmpty
  rw [noneFree] at once
  cases once

end Keys

end DirectXAtlasState

end Gpui
