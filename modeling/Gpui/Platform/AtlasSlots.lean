import Gpui.Library.Slots
import Gpui.Platform.MetalAtlas

/-!
# Slots of textures

An atlas has a list of slots for each kind of texture.  A texture is where its identifier
says, and the free list of a kind has its empty slots, each once.  What happens to one slot
changes one texture.
-/

namespace Gpui

open Gpui.Library

/-- `iter_mut().rev().find_map(allocate)`: the last texture that has room, with its slot, the
tile and the texture after. -/
def allocateLast {T : Type} (allocate : T → Option (AtlasTile × T)) :
    List (Option T) → Option (Nat × AtlasTile × T)
  | [] => none
  | slot :: slots =>
      match allocateLast allocate slots with
      | some (ix, tile, texture) => some (ix + 1, tile, texture)
      | none => (slot.bind allocate).map fun found => (0, found)

theorem allocateLast_eq_some {T : Type} {allocate : T → Option (AtlasTile × T)}
    {slots : List (Option T)} {ix : Nat} {tile : AtlasTile} {changed : T}
    (allocates : allocateLast allocate slots = some (ix, tile, changed)) :
    ∃ texture, slots[ix]? = some (some texture) ∧ allocate texture = some (tile, changed) := by
  induction slots generalizing ix with
  | nil => cases allocates
  | cons slot slots ih =>
      rw [allocateLast] at allocates
      cases later : allocateLast allocate slots with
      | some found =>
          simp only [later] at allocates
          rcases Option.some.inj allocates with ⟨⟩
          exact ih later
      | none =>
          simp only [later] at allocates
          rcases Option.map_eq_some_iff.mp allocates with ⟨found, takes, same⟩
          rcases Option.bind_eq_some_iff.mp takes with ⟨texture, rfl, taken⟩
          rcases same
          exact ⟨texture, rfl, taken⟩

theorem allocateLast_eq_none {T : Type} {allocate : T → Option (AtlasTile × T)}
    {slots : List (Option T)} (fails : allocateLast allocate slots = none) :
    ∀ texture, some texture ∈ slots → allocate texture = none := by
  induction slots with
  | nil =>
      intro texture member
      cases member
  | cons slot slots ih =>
      rw [allocateLast] at fails
      cases later : allocateLast allocate slots with
      | some found =>
          simp only [later] at fails
          cases fails
      | none =>
          simp only [later] at fails
          intro texture member
          rcases List.mem_cons.mp member with here | behind
          · rw [← here, Option.map_eq_none_iff, Option.bind_some] at fails
            exact fails
          · exact ih later texture behind

/-- A list of slots for each kind. -/
abbrev TextureLists (T : Type) : Type :=
  AtlasTextureKind → AtlasTextureList T

namespace TextureLists

variable {T : Type}

/-- The texture that an identifier names. -/
def texture (lists : TextureLists T) (id : AtlasTextureId) : Option T :=
  ((lists id.kind).textures[id.index.toNat]?).join

/-- Textures have the identifiers of their slots, and the free lists have the empty slots. -/
def Identified (identifier : T → AtlasTextureId) (lists : TextureLists T) : Prop :=
  ∀ kind, Slotted
    (fun ix texture => (identifier texture).kind = kind ∧ (identifier texture).index.toNat = ix)
    (lists kind).textures (lists kind).freeList

theorem texture_eq_some_iff {lists : TextureLists T} {id : AtlasTextureId} {texture : T} :
    lists.texture id = some texture ↔
      (lists id.kind).textures[id.index.toNat]? = some (some texture) :=
  Option.join_eq_some_iff

theorem id_eq {id other : AtlasTextureId} (kind : id.kind = other.kind)
    (index : id.index.toNat = other.index.toNat) : id = other := by
  rcases id with ⟨index₁, kind₁⟩
  rcases other with ⟨index₂, kind₂⟩
  change kind₁ = kind₂ at kind
  change index₁.toNat = index₂.toNat at index
  rw [kind, UInt32.toNat_inj.mp index]

/-- The slot of one texture is written. -/
theorem texture_update (lists : TextureLists T) (id : AtlasTextureId)
    {list : AtlasTextureList T} {texture : Option T}
    (here : (list.textures[id.index.toNat]?).join = texture)
    (elsewhere : ∀ other ≠ id.index.toNat,
      list.textures[other]? = (lists id.kind).textures[other]?) :
    TextureLists.texture (Function.update lists id.kind list) =
      Function.update lists.texture id texture := by
  funext other
  unfold TextureLists.texture
  by_cases same : other = id
  · rw [same, Function.update_self, Function.update_self]
    exact here
  · rw [Function.update_of_ne same]
    by_cases sameKind : other.kind = id.kind
    · rw [sameKind, Function.update_self,
        elsewhere _ fun sameIndex => same (id_eq sameKind sameIndex)]
    · rw [Function.update_of_ne sameKind]

namespace Identified

variable {identifier : T → AtlasTextureId} {lists : TextureLists T}

/-- The list of a kind is replaced. -/
theorem update (identified : Identified identifier lists) {kind : AtlasTextureKind}
    {list : AtlasTextureList T}
    (slotted : Slotted (fun ix texture =>
      (identifier texture).kind = kind ∧ (identifier texture).index.toNat = ix)
      list.textures list.freeList) :
    Identified identifier (Function.update lists kind list) := by
  intro other
  by_cases same : other = kind
  · rcases same with rfl
    rw [Function.update_self]
    exact slotted
  · rw [Function.update_of_ne same]
    exact identified other

theorem identifier_eq (identified : Identified identifier lists) {id : AtlasTextureId}
    {texture : T} (found : lists.texture id = some texture) : identifier texture = id := by
  rcases (identified id.kind).fits (texture_eq_some_iff.1 found) with ⟨sameKind, sameIndex⟩
  exact id_eq sameKind sameIndex

/-- A texture is replaced by itself, changed. -/
theorem replace (identified : Identified identifier lists) {id : AtlasTextureId}
    {texture changed : T} (found : lists.texture id = some texture)
    (same : identifier changed = id) {list : AtlasTextureList T}
    (isList : list = { lists id.kind with
      textures := (lists id.kind).textures.set id.index.toNat (some changed) }) :
    Identified identifier (Function.update lists id.kind list) ∧
      TextureLists.texture (Function.update lists id.kind list) =
        Function.update lists.texture id (some changed) := by
  have inSlot := texture_eq_some_iff.1 found
  rw [isList]
  constructor
  · apply identified.update
    apply (identified id.kind).set inSlot
    rw [same]
    exact ⟨rfl, rfl⟩
  · apply texture_update
    · rw [List.getElem?_set_self (List.getElem?_eq_some_iff.mp inSlot).1]
      rfl
    · exact fun other different => List.getElem?_set_ne (Ne.symm different)

/-- A texture is dropped. -/
theorem drop (identified : Identified identifier lists) {id : AtlasTextureId} {texture : T}
    (found : lists.texture id = some texture) {list : AtlasTextureList T}
    (isList : list = ⟨(lists id.kind).textures.set id.index.toNat none,
      (lists id.kind).freeList ++ [id.index.toNat]⟩) :
    Identified identifier (Function.update lists id.kind list) ∧
      TextureLists.texture (Function.update lists id.kind list) =
        Function.update lists.texture id none := by
  have inSlot := texture_eq_some_iff.1 found
  rw [isList]
  constructor
  · exact identified.update ((identified id.kind).drop inSlot)
  · apply texture_update
    · rw [List.getElem?_set_self (List.getElem?_eq_some_iff.mp inSlot).1]
      rfl
    · exact fun other different => List.getElem?_set_ne (Ne.symm different)

/-- The last empty slot of the free list is filled. -/
theorem fill (identified : Identified identifier lists) {id : AtlasTextureId}
    (front : List Nat) (top : (lists id.kind).freeList = front ++ [id.index.toNat])
    {fresh : T} (same : identifier fresh = id) {list : AtlasTextureList T}
    (isList : list = ⟨(lists id.kind).textures.set id.index.toNat (some fresh), front⟩) :
    lists.texture id = none ∧ Identified identifier (Function.update lists id.kind list) ∧
      TextureLists.texture (Function.update lists id.kind list) =
        Function.update lists.texture id (some fresh) := by
  have vacant := (identified id.kind).vacant top
  rw [isList]
  constructor
  · rw [TextureLists.texture, vacant]
    rfl
  · constructor
    · apply identified.update
      apply (identified id.kind).fill top
      rw [same]
      exact ⟨rfl, rfl⟩
    · apply texture_update
      · rw [List.getElem?_set_self (List.getElem?_eq_some_iff.mp vacant).1]
        rfl
      · exact fun other different => List.getElem?_set_ne (Ne.symm different)

/-- Without an empty slot there is one more. -/
theorem grow (identified : Identified identifier lists) {id : AtlasTextureId}
    (noneFree : (lists id.kind).freeList = [])
    (last : id.index.toNat = (lists id.kind).textures.length) {fresh : T}
    (same : identifier fresh = id) {list : AtlasTextureList T}
    (isList : list = { lists id.kind with
      textures := (lists id.kind).textures ++ [some fresh] }) :
    lists.texture id = none ∧ Identified identifier (Function.update lists id.kind list) ∧
      TextureLists.texture (Function.update lists id.kind list) =
        Function.update lists.texture id (some fresh) := by
  have slotted := identified id.kind
  rw [noneFree] at slotted
  rw [isList]
  constructor
  · rw [TextureLists.texture, last, List.getElem?_eq_none le_rfl]
    rfl
  · constructor
    · apply identified.update
      rw [noneFree]
      apply slotted.grow
      rw [same]
      exact ⟨rfl, last⟩
    · apply texture_update
      · rw [last, List.getElem?_concat_length]
        rfl
      · intro other different
        rw [last] at different
        exact getElem?_concat_of_ne different

end Identified

end TextureLists

end Gpui
