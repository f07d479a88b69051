import Gpui.Scene.Completeness

/-!
# Building a scene

A scene is built by a sequence of calls and then finished.  Its batches cover
it unless some call stored a primitive with the order `u32::MAX`, as
`replay_cached_text` does for a layer that is clipped away entirely.
-/

namespace Gpui

variable {K : Type} [Field K] [LinearOrder K]

/-- The methods that add content to a scene. -/
inductive SceneCall (K : Type) where
  | insertPrimitive (primitive : Primitive K)
  | pushLayer (bounds : Bounds K)
  | popLayer
  | replay (start stop : Nat) (prevScene : Scene K)
  | replayVectorTransform (operations : List (PaintOperation K)) (scale : K)
      (translation : Point K)
  | replayCachedText (operations : List (PaintOperation K)) (originDelta : Point K)
      (contentMask : ContentMask K) (transformation : TransformationMatrix K)

namespace SceneCall

def apply (self : Scene K) : SceneCall K → Option (Scene K)
  | .insertPrimitive primitive => self.insertPrimitive primitive
  | .pushLayer bounds => self.pushLayer bounds
  | .popLayer => some self.popLayer
  | .replay start stop prevScene => self.replay start stop prevScene
  | .replayVectorTransform operations scale translation =>
      self.replayVectorTransform operations scale translation
  | .replayCachedText operations originDelta contentMask transformation =>
      self.replayCachedText operations originDelta contentMask transformation

/-- Build a scene from nothing. -/
def run (calls : List (SceneCall K)) : Option (Scene K) :=
  calls.foldlM apply Scene.empty

/-- The batches of a built scene cover it exactly when, shadows apart, no call
stored a primitive with the order `u32::MAX`. -/
theorem run_finish_coveredBy_iff (calls : List (SceneCall K)) {scene : Scene K}
    (_ran : run calls = some scene) :
    Library.Exhausts BatchIterator.next scene.finish.batchIterator scene.finish.batches ∧
      (scene.finish.CoveredBy scene.finish.batches ↔
        ∀ kind, kind ≠ PrimitiveKind.shadow → ∀ primitive ∈ scene.vector kind,
          primitive.order ≠ DrawOrder.MAX) :=
  ⟨scene.exhausts_batches, scene.finish_coveredBy_iff⟩

/-- A cached line whose layer ends where the content mask begins, with a glyph
that reaches over the end of the line into the mask. -/
def overhang : List (SceneCall ℚ) :=
  [.replayCachedText
    [.startLayer ⟨⟨0, 0⟩, ⟨10, 10⟩⟩,
      .primitive (.monochromeSprite
        { order := 1
          bounds := ⟨⟨8, 0⟩, ⟨4, 10⟩⟩
          contentMask := ⟨⟨⟨0, 0⟩, ⟨100, 100⟩⟩⟩
          color := ⟨0, 0, 0, 1⟩
          tile := ⟨⟨0, .monochrome⟩, 0, 0, ⟨⟨0, 0⟩, ⟨4, 10⟩⟩⟩
          transformation := .unit }),
      .endLayer]
    ⟨0, 0⟩ ⟨⟨⟨10, 0⟩, ⟨10, 10⟩⟩⟩ .unit]

/-- The glyph's part of the mask is not empty, yet it is stored with the
sentinel order. -/
theorem overhang_stored :
    (run overhang).map (fun scene => (scene.vector .monochromeSprite).map fun primitive =>
      (primitive.order, (Scene.clippedBounds primitive).isEmpty)) =
        some [(DrawOrder.MAX, false)] := by
  decide +kernel

theorem run_finish_coveredBy_iff_overhang :
    ∃ scene, run overhang = some scene ∧
      (scene.finish.CoveredBy scene.finish.batches ↔
        ∀ kind, kind ≠ PrimitiveKind.shadow → ∀ primitive ∈ scene.vector kind,
          primitive.order ≠ DrawOrder.MAX) := by
  obtain ⟨scene, ran, -⟩ := Option.map_eq_some_iff.mp overhang_stored
  exact ⟨scene, ran, (run_finish_coveredBy_iff overhang ran).2⟩

/-- Not every built scene is covered by its batches. -/
theorem overhang_not_coveredBy :
    ¬ ∀ (calls : List (SceneCall ℚ)) (scene : Scene ℚ), run calls = some scene →
      scene.finish.CoveredBy scene.finish.batches := by
  intro covers
  obtain ⟨scene, ran, stored⟩ := Option.map_eq_some_iff.mp overhang_stored
  have visible := scene.finish_coveredBy_iff.mp (covers overhang scene ran)
  obtain ⟨glyph, glyphMem, glyphEq⟩ :
      ∃ glyph ∈ scene.vector .monochromeSprite,
        (glyph.order, (Scene.clippedBounds glyph).isEmpty) = (DrawOrder.MAX, false) :=
    List.mem_map.mp (by rw [stored]; exact List.mem_singleton_self _)
  exact visible .monochromeSprite (by decide) glyph glyphMem (congrArg Prod.fst glyphEq)

end SceneCall

end Gpui
