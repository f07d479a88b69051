import Gpui.Library.Transition
import Gpui.Scene.ClippedReplay

/-!
# Cached vector scenes

The element paints a child and keeps the operations that the child added to the scene.  In a
later frame with the same revision, whose viewport lies in the area that the operations cover,
it does not build the child: it replays the operations, moved from the camera that they were
captured with to the current one.

Neither the content mask nor the bounds of the element are compared.  The operations were
culled by the mask of the frame that captured them, which moves with the camera.
-/

namespace Gpui

open Gpui.Library

variable {K : Type} [Field K] [LinearOrder K]

structure VectorSceneTransform (K : Type) where
  scale : K
  translation : Point K
deriving DecidableEq, Repr

namespace VectorSceneTransform

def isValid (self : VectorSceneTransform K) : Bool :=
  0 < self.scale

def relativeTo (self captured : VectorSceneTransform K) : Option (K × Point K) :=
  if !self.isValid || !captured.isValid then none
  else
    let scale := self.scale / captured.scale
    let translation : Point K :=
      ⟨self.translation.x - captured.translation.x * scale,
        self.translation.y - captured.translation.y * scale⟩
    if 0 < scale then some (scale, translation) else none

end VectorSceneTransform

structure VectorSceneCoverage (K : Type) where
  bounds : Bounds K
deriving DecidableEq, Repr

/-- The edges of the coverage count. -/
def VectorSceneCoverage.contains (self : VectorSceneCoverage K) (viewport : Bounds K) : Bool :=
  viewport.origin.x ≥ self.bounds.origin.x && viewport.origin.y ≥ self.bounds.origin.y &&
    viewport.bottomRight.x ≤ self.bounds.bottomRight.x &&
      viewport.bottomRight.y ≤ self.bounds.bottomRight.y

structure VectorSceneCacheStats where
  hits : Nat
  misses : Nat
  unsupported : Nat
  primitiveCount : Nat
deriving DecidableEq, Repr

/-- What the element looks at of the window. -/
structure VectorWindow (K : Type) where
  scaleFactor : K
  contentMask : ContentMask K
  scene : Scene K
  hitboxes : Nat
  deferredDraws : Nat
  mouseListeners : Nat
  inputHandlers : Nat
  cursorStyles : Nat

/-- A child, laid out: what it paints, and how much it adds to the vectors that are
compared. -/
structure VectorChild (K : Type) where
  content : PaintedContent K
  hitboxes : Nat
  deferredDraws : Nat
  mouseListeners : Nat
  inputHandlers : Nat
  cursorStyles : Nat
deriving DecidableEq, Repr

structure CachedVectorSceneTranslation (K : Type) where
  revision : UInt64
  coverage : VectorSceneCoverage K
  viewport : Bounds K
  transform : VectorSceneTransform K
  child : VectorChild K
deriving DecidableEq, Repr

structure VectorSceneState (K : Type) where
  revision : UInt64
  coverage : VectorSceneCoverage K
  capturedTransform : VectorSceneTransform K
  /-- The source keeps the bits of the number. -/
  scaleFactor : K
  operations : List (PaintOperation K)
  ready : Bool
deriving DecidableEq, Repr

/-- `VectorSceneState::default` -/
def VectorSceneState.new : VectorSceneState K where
  revision := 0
  coverage := ⟨⟨⟨0, 0⟩, ⟨0, 0⟩⟩⟩
  capturedTransform := ⟨1, ⟨0, 0⟩⟩
  scaleFactor := 0
  operations := []
  ready := false

structure VectorScenePrepaintState (K : Type) where
  hit : Bool
  relativeScale : K
  relativeTranslation : Point K
  prepaintSafe : Bool
deriving DecidableEq, Repr

namespace CachedVectorSceneTranslation

/-! ## Drawing the element -/

/-- The closure over the element state in `prepaint`. -/
def relativeTransform (self : CachedVectorSceneTranslation K) (state : VectorSceneState K)
    (scaleFactor : K) : Option (K × Point K) :=
  if state.ready && state.revision == self.revision && state.scaleFactor = scaleFactor &&
      state.coverage.contains self.viewport then
    self.transform.relativeTo state.capturedTransform
  else none

def prepaint (self : CachedVectorSceneTranslation K) (stats : VectorSceneCacheStats)
    (state : VectorSceneState K) (window : VectorWindow K) :
    VectorScenePrepaintState K × VectorSceneCacheStats × VectorWindow K :=
  match self.relativeTransform state window.scaleFactor with
  | some (relativeScale, relativeTranslation) =>
      (⟨true, relativeScale, relativeTranslation, true⟩, { stats with hits := stats.hits + 1 },
        window)
  | none =>
      let hitboxesBefore := window.hitboxes
      let deferredBefore := window.deferredDraws
      let window :=
        { window with
          hitboxes := window.hitboxes + self.child.hitboxes
          deferredDraws := window.deferredDraws + self.child.deferredDraws }
      (⟨false, 1, ⟨0, 0⟩,
          hitboxesBefore == window.hitboxes && deferredBefore == window.deferredDraws⟩,
        { stats with misses := stats.misses + 1 }, window)

/-- The operations that were painted, if they may be replayed. -/
def capturedOperations (before painted : VectorWindow K) (prepaintSafe : Bool) :
    Option (Option (List (PaintOperation K))) := do
  let operations ←
    if prepaintSafe then painted.scene.cloneVectorPaint before.scene.len painted.scene.len
    else some none
  return operations.filter fun _ =>
    before.mouseListeners == painted.mouseListeners &&
      before.inputHandlers == painted.inputHandlers &&
        before.cursorStyles == painted.cursorStyles

/-- What the child paints. -/
def paintChild (self : CachedVectorSceneTranslation K) (window : VectorWindow K) :
    Option (VectorWindow K) := do
  let scene ← self.child.content.paint window.scaleFactor window.contentMask window.scene
  return { window with
    scene
    mouseListeners := window.mouseListeners + self.child.mouseListeners
    inputHandlers := window.inputHandlers + self.child.inputHandlers
    cursorStyles := window.cursorStyles + self.child.cursorStyles }

def paint (self : CachedVectorSceneTranslation K) (prepaint : VectorScenePrepaintState K)
    (stats : VectorSceneCacheStats) (state : VectorSceneState K) (window : VectorWindow K) :
    Option (VectorSceneCacheStats × VectorSceneState K × VectorWindow K) :=
  if prepaint.hit then do
    let translation := prepaint.relativeTranslation.scale window.scaleFactor
    let scene ← window.scene.replayVectorTransform state.operations prepaint.relativeScale
      translation
    return (stats, state, { window with scene })
  else do
    let painted ← self.paintChild window
    let operations ← capturedOperations window painted prepaint.prepaintSafe
    let supported := self.transform.isValid && operations.isSome
    let stats : VectorSceneCacheStats :=
      { stats with
        unsupported := if supported then stats.unsupported else stats.unsupported + 1
        primitiveCount := operations.elim 0 List.length }
    let state : VectorSceneState K :=
      { revision := self.revision
        coverage := self.coverage
        capturedTransform := self.transform
        scaleFactor := painted.scaleFactor
        operations := operations.getD []
        ready := supported }
    return (stats, state, painted)

/-- Prepaint and paint with the state of the element's last frame, if it was drawn there. -/
def draw (self : CachedVectorSceneTranslation K) (stats : VectorSceneCacheStats)
    (state : Option (VectorSceneState K)) (window : VectorWindow K) :
    Option (VectorSceneCacheStats × VectorSceneState K × VectorWindow K) :=
  let state := state.getD .new
  let (prepaintState, stats, window) := self.prepaint stats state window
  self.paint prepaintState stats state window

end CachedVectorSceneTranslation

/-! ## Frames -/

/-- A frame that draws the element: what was painted before it, and what was added to the
vectors that are compared. -/
structure VectorFrame (K : Type) [Field K] [LinearOrder K] where
  element : CachedVectorSceneTranslation K
  scaleFactor : K
  scaleFactor_pos : 0 < scaleFactor
  contentMask : ContentMask K
  painted : List (PaintOperation K)
  hitboxes : Nat
  deferredDraws : Nat
  mouseListeners : Nat
  inputHandlers : Nat
  cursorStyles : Nat

def VectorFrame.window (self : VectorFrame K) : Option (VectorWindow K) := do
  let scene ← self.painted.foldlM Scene.replayOperation Scene.empty
  return {
    scaleFactor := self.scaleFactor
    contentMask := self.contentMask
    scene
    hitboxes := self.hitboxes
    deferredDraws := self.deferredDraws
    mouseListeners := self.mouseListeners
    inputHandlers := self.inputHandlers
    cursorStyles := self.cursorStyles }

/-- The handle's counters, and the element state, which is lost in a frame without the
element. -/
structure VectorSceneCache (K : Type) where
  stats : VectorSceneCacheStats
  state : Option (VectorSceneState K)

namespace VectorSceneCache

def new : VectorSceneCache K where
  stats := ⟨0, 0, 0, 0⟩
  state := none

/-- A frame, with the element or without. -/
def step (self : VectorSceneCache K) : Option (VectorFrame K) → Option (VectorSceneCache K)
  | none => some { self with state := none }
  | some frame => do
      let window ← frame.window
      let (stats, state, _) ← frame.element.draw self.stats self.state window
      return { stats, state }

def run (frames : List (Option (VectorFrame K))) : Option (VectorSceneCache K) :=
  frames.foldlM step new

end VectorSceneCache

/-! ## What was captured -/

/-- The child adds to none of the vectors that are compared. -/
def VectorChild.AddsNothing (self : VectorChild K) : Prop :=
  self.hitboxes = 0 ∧ self.deferredDraws = 0 ∧ self.mouseListeners = 0 ∧
    self.inputHandlers = 0 ∧ self.cursorStyles = 0

/-- The state holds what the element painted in the frame. -/
structure VectorFrame.Captures (frame : VectorFrame K) (state : VectorSceneState K) : Prop where
  revision : state.revision = frame.element.revision
  coverage : state.coverage = frame.element.coverage
  capturedTransform : state.capturedTransform = frame.element.transform
  scaleFactor : state.scaleFactor = frame.scaleFactor
  operations : LoggedAs
    (frame.element.child.content.operations frame.scaleFactor frame.contentMask) state.operations
  isVector : ∀ operation ∈ state.operations, Scene.IsVector operation
  addsNothing : frame.element.child.AddsNothing

namespace VectorFrame

theorem exists_window (self : VectorFrame K) :
    ∃ window, self.window = some window ∧ window.scaleFactor = self.scaleFactor ∧
      window.contentMask = self.contentMask ∧
      window.scene.Built := by
  rcases Scene.replay_isSome self.painted with ⟨scene, built⟩
  apply Exists.intro _
  constructor
  · rw [window, built]
    rfl
  · exact ⟨rfl, rfl, self.painted, built⟩

end VectorFrame

namespace CachedVectorSceneTranslation

variable {element : CachedVectorSceneTranslation K}

omit [Field K] [LinearOrder K] in
/-- What may be replayed is the log of what was painted. -/
theorem capturedOperations_eq {before painted : VectorWindow K} {logged : List (PaintOperation K)}
    (log : painted.scene.paintOperations = before.scene.paintOperations ++ logged)
    (prepaintSafe : Bool) :
    ∃ operations, capturedOperations before painted prepaintSafe = some operations ∧
      ∀ kept, operations = some kept ↔
        prepaintSafe = true ∧ kept = logged ∧
          (∀ operation ∈ logged, Scene.IsVector operation) ∧
          before.mouseListeners = painted.mouseListeners ∧
          before.inputHandlers = painted.inputHandlers ∧
          before.cursorStyles = painted.cursorStyles := by
  have range : painted.scene.cloneVectorPaint before.scene.len painted.scene.len =
      some (logged.mapM Scene.cloneVectorOperation) := by
    rw [Scene.cloneVectorPaint, Scene.len, Scene.len, log, Scene.slice_append]
    rfl
  cases prepaintSafe with
  | false =>
      apply Exists.intro none
      constructor
      · rfl
      · simp only [Bool.false_eq_true, false_and, reduceCtorEq, implies_true]
  | true =>
      apply Exists.intro _
      constructor
      · rw [capturedOperations, if_pos rfl, range]
        rfl
      · intro kept
        simp only [Option.filter_eq_some_iff, Bool.and_eq_true, beq_iff_eq, and_assoc, true_and]
        constructor
        · rintro ⟨clones, counts⟩
          rcases Scene.isVector_of_mapM clones with ⟨rfl, isVector⟩
          exact ⟨rfl, isVector, counts⟩
        · rintro ⟨rfl, isVector, counts⟩
          exact ⟨Scene.mapM_of_isVector isVector, counts⟩

/-- Painting the child goes well, and what it logs is known. -/
theorem exists_paintChild (window : VectorWindow K)
    (built : window.scene.Built) :
    ∃ painted logged, element.paintChild window = some painted ∧
      painted.scaleFactor = window.scaleFactor ∧
      painted.scene.paintOperations = window.scene.paintOperations ++ logged ∧
      LoggedAs (element.child.content.operations window.scaleFactor window.contentMask) logged ∧
      painted.mouseListeners = window.mouseListeners + element.child.mouseListeners ∧
      painted.inputHandlers = window.inputHandlers + element.child.inputHandlers ∧
      painted.cursorStyles = window.cursorStyles + element.child.cursorStyles := by
  rcases built.exists_foldlM
    (element.child.content.operations window.scaleFactor window.contentMask) with ⟨next, replays⟩
  rcases Scene.loggedAs_foldlM replays with ⟨logged, log, loggedAs⟩
  have paints : element.child.content.paint window.scaleFactor window.contentMask window.scene =
      some next := (PaintedContent.paint_eq _ _ _ _).trans replays
  apply Exists.intro _
  apply Exists.intro logged
  constructor
  · rw [paintChild, paints]
    rfl
  · exact ⟨rfl, log, loggedAs, rfl, rfl, rfl⟩

/-- A miss captures what it paints, or leaves nothing that could be replayed. -/
theorem draw_of_miss (frame : VectorFrame K) (stats : VectorSceneCacheStats)
    (state : Option (VectorSceneState K))
    (misses : frame.element.relativeTransform (state.getD .new) frame.scaleFactor = none) :
    ∃ window next stats' state' logged, frame.window = some window ∧
      frame.element.draw stats state window = some (stats', state', next) ∧
      next.scene.paintOperations = window.scene.paintOperations ++ logged ∧
      LoggedAs (frame.element.child.content.operations frame.scaleFactor frame.contentMask)
        logged ∧
      (state'.ready = true → frame.Captures state') ∧
      (frame.element.transform.isValid = true → frame.element.child.AddsNothing →
        (∀ operation ∈ logged, Scene.IsVector operation) → state'.ready = true) := by
  rcases frame.exists_window with ⟨window, isWindow, sameScale, sameMask, built⟩
  let prepainted : VectorWindow K :=
    { window with
      hitboxes := window.hitboxes + frame.element.child.hitboxes
      deferredDraws := window.deferredDraws + frame.element.child.deferredDraws }
  have builtBefore : prepainted.scene.Built := built
  have paintsChild : ∃ painted logged, frame.element.paintChild prepainted = some painted ∧ _ :=
    exists_paintChild prepainted builtBefore
  rcases paintsChild with
    ⟨painted, logged, paints, paintedScale, log, loggedAs, mouse, input, cursor⟩
  let prepaintSafe := window.hitboxes == prepainted.hitboxes &&
    window.deferredDraws == prepainted.deferredDraws
  rcases capturedOperations_eq log prepaintSafe with ⟨operations, captures, kept⟩
  let captured : VectorSceneState K :=
    { revision := frame.element.revision
      coverage := frame.element.coverage
      capturedTransform := frame.element.transform
      scaleFactor := painted.scaleFactor
      operations := operations.getD []
      ready := frame.element.transform.isValid && operations.isSome }
  rw [← sameScale] at misses
  apply Exists.intro window
  apply Exists.intro painted
  apply Exists.intro _
  apply Exists.intro captured
  apply Exists.intro logged
  rw [← sameScale, ← sameMask]
  constructor
  · exact isWindow
  · refine ⟨?_, log, loggedAs, ?_, ?_⟩
    · rw [draw, prepaint, misses]
      change (frame.element.paintChild prepainted).bind _ = _
      rw [paints, Option.bind_some]
      change (capturedOperations prepainted painted prepaintSafe).bind _ = _
      rw [captures, Option.bind_some]
      rfl
    · intro ready
      rcases Option.isSome_iff_exists.mp (Bool.and_eq_true_iff.mp ready).2 with
        ⟨found, isFound⟩
      have isCaptured : captured.operations = found := congrArg (Option.getD · []) isFound
      rcases (kept found).mp isFound with ⟨safe, rfl, isVector, sameMouse, sameInput, sameCursor⟩
      rcases Bool.and_eq_true_iff.mp safe with ⟨sameHitboxes, sameDeferred⟩
      constructor
      case revision => rfl
      case coverage => rfl
      case capturedTransform => rfl
      case scaleFactor => exact paintedScale.trans sameScale
      case operations =>
        rw [isCaptured, ← sameScale, ← sameMask]
        exact loggedAs
      case isVector =>
        rw [isCaptured]
        exact isVector
      case addsNothing =>
        exact ⟨Nat.left_eq_add.mp (beq_iff_eq.mp sameHitboxes),
          Nat.left_eq_add.mp (beq_iff_eq.mp sameDeferred),
          Nat.left_eq_add.mp (sameMouse.trans mouse), Nat.left_eq_add.mp (sameInput.trans input),
          Nat.left_eq_add.mp (sameCursor.trans cursor)⟩
    · rintro valid ⟨hitboxes, deferredDraws, listeners, handlers, styles⟩ isVector
      have safe : prepaintSafe = true :=
        Bool.and_eq_true_iff.mpr ⟨beq_iff_eq.mpr (Nat.left_eq_add.mpr hitboxes),
          beq_iff_eq.mpr (Nat.left_eq_add.mpr deferredDraws)⟩
      have isSome : operations = some logged := (kept logged).mpr
        ⟨safe, rfl, isVector, (Nat.left_eq_add.mpr listeners).trans mouse.symm,
          (Nat.left_eq_add.mpr handlers).trans input.symm,
          (Nat.left_eq_add.mpr styles).trans cursor.symm⟩
      exact Bool.and_eq_true_iff.mpr ⟨valid, congrArg Option.isSome isSome⟩

/-- A hit leaves the state alone and adds to nothing but the scene, where it shows what was
captured, moved. -/
theorem draw_of_hit [IsStrictOrderedRing K] (frame : VectorFrame K)
    (stats : VectorSceneCacheStats) (state : Option (VectorSceneState K)) {relative : K × Point K}
    (hits : frame.element.relativeTransform (state.getD .new) frame.scaleFactor = some relative) :
    ∃ window next replayed, frame.window = some window ∧
      frame.element.draw stats state window =
        some ({ stats with hits := stats.hits + 1 }, state.getD .new, next) ∧
      next = { window with scene := next.scene } ∧
      next.scene.paintOperations = window.scene.paintOperations ++ replayed ∧
      LoggedAs ((state.getD .new).operations.map
        (.transformed relative.1 (relative.2.scale frame.scaleFactor))) replayed := by
  rcases frame.exists_window with ⟨window, isWindow, sameScale, -, built⟩
  rw [← sameScale] at hits ⊢
  rcases built.exists_foldlM ((state.getD .new).operations.map
    (.transformed relative.1 (relative.2.scale window.scaleFactor))) with ⟨scene, replays⟩
  rcases Scene.loggedAs_foldlM replays with ⟨replayed, log, loggedAs⟩
  apply Exists.intro window
  apply Exists.intro { window with scene }
  apply Exists.intro replayed
  constructor
  · exact isWindow
  · constructor
    · rw [draw, prepaint, hits]
      change (window.scene.replayVectorTransform _ _ _).bind _ = _
      rw [Scene.replayVectorTransform_eq, replays]
      rfl
    · exact ⟨rfl, log, loggedAs⟩

/-- What lets an element hit. -/
theorem relativeTransform_eq_some {state : VectorSceneState K} {scaleFactor : K}
    {relative : K × Point K}
    (hits : element.relativeTransform state scaleFactor = some relative) :
    state.ready = true ∧ state.revision = element.revision ∧ state.scaleFactor = scaleFactor ∧
      state.coverage.contains element.viewport = true ∧
      element.transform.relativeTo state.capturedTransform = some relative := by
  rw [relativeTransform] at hits
  rcases Option.ite_none_right_eq_some.mp hits with ⟨tests, relates⟩
  simp only [Bool.and_eq_true, beq_iff_eq, decide_eq_true_eq, and_assoc] at tests
  exact ⟨tests.1, tests.2.1, tests.2.2.1, tests.2.2.2, relates⟩

end CachedVectorSceneTranslation

theorem VectorSceneTransform.relativeTo_eq_some {current captured : VectorSceneTransform K}
    {relative : K × Point K} (relates : current.relativeTo captured = some relative) :
    0 < current.scale ∧ 0 < captured.scale ∧ 0 < relative.1 ∧
      relative.1 = current.scale / captured.scale ∧
      relative.2 = ⟨current.translation.x - captured.translation.x * relative.1,
        current.translation.y - captured.translation.y * relative.1⟩ := by
  rw [relativeTo] at relates
  rcases Option.ite_none_left_eq_some.mp relates with ⟨valid, rest⟩
  rcases Option.ite_none_right_eq_some.mp rest with ⟨positive, same⟩
  rcases Option.some.inj same with rfl
  simp only [isValid, Bool.or_eq_true, Bool.not_eq_true', decide_eq_false_iff_not, not_or,
    not_not] at valid
  exact ⟨valid.1, valid.2, positive, rfl, rfl⟩

/-! ## Runs -/

namespace VectorSceneCache

/-- What may be replayed was captured in a frame of the run, and since then the element was
in every frame. -/
def Remembers (frames : List (Option (VectorFrame K))) (cache : VectorSceneCache K) : Prop :=
  ∀ state, cache.state = some state → state.ready = true →
    ∃ before captured since, frames = before ++ some captured :: since ∧ none ∉ since ∧
      captured.Captures state

theorem remembers_new : Remembers [] (new : VectorSceneCache K) := nofun

/-- Every frame can be drawn. -/
theorem remembers_step [IsStrictOrderedRing K] {frames : List (Option (VectorFrame K))}
    {cache : VectorSceneCache K} (remembers : Remembers frames cache)
    (event : Option (VectorFrame K)) :
    ∃ next, cache.step event = some next ∧ Remembers (frames ++ [event]) next := by
  cases event with
  | none => exact ⟨{ cache with state := none }, rfl, nofun⟩
  | some frame =>
      cases tests : frame.element.relativeTransform (cache.state.getD .new) frame.scaleFactor with
      | none =>
          rcases CachedVectorSceneTranslation.draw_of_miss frame cache.stats cache.state tests with
            ⟨window, painted, stats, state, logged, isWindow, draws, -, -, captures, -⟩
          apply Exists.intro ⟨stats, some state⟩
          constructor
          · rw [step, isWindow, Option.bind_eq_bind, Option.bind_some, draws]
            rfl
          · rintro kept ⟨⟩ ready
            exact ⟨frames, frame, [], rfl, List.not_mem_nil, captures ready⟩
      | some relative =>
          rcases CachedVectorSceneTranslation.draw_of_hit frame cache.stats cache.state tests with
            ⟨window, painted, replayed, isWindow, draws, -⟩
          apply Exists.intro ⟨_, some (cache.state.getD .new)⟩
          constructor
          · rw [step, isWindow, Option.bind_eq_bind, Option.bind_some, draws]
            rfl
          · rintro kept ⟨⟩ ready
            cases isState : cache.state with
            | none =>
                rw [isState] at ready
                cases ready
            | some state =>
                rw [isState] at ready
                rcases remembers state isState ready with
                  ⟨before, captured, since, rfl, drawn, captures⟩
                apply Exists.intro before
                apply Exists.intro captured
                apply Exists.intro (since ++ [some frame])
                constructor
                · rw [List.append_assoc, List.cons_append]
                · constructor
                  · intro member
                    rcases List.mem_append.mp member with earlier | last
                    · exact drawn earlier
                    · cases List.mem_singleton.mp last
                  · exact captures

theorem exists_run [IsStrictOrderedRing K] (frames : List (Option (VectorFrame K))) :
    ∃ cache, run frames = some cache ∧ Remembers frames cache := by
  induction frames using List.reverseRecOn with
  | nil => exact ⟨new, rfl, remembers_new⟩
  | append_singleton frames event ih =>
      rcases ih with ⟨cache, isCache, remembers⟩
      rcases remembers_step remembers event with ⟨next, steps, remembersNext⟩
      apply Exists.intro next
      constructor
      · rw [run, List.foldlM_append]
        change (run frames).bind _ = _
        rw [isCache, Option.bind_some, List.foldlM_cons, steps]
        rfl
      · exact remembersNext

end VectorSceneCache

/-- In the frame, the element replays what it painted in the captured frame: it adds to
nothing but the scene, and shows what was painted then, moved with the camera, where the mask
of that frame, moved as well, lets it through. -/
def VectorFrame.Replays (self captured : VectorFrame K) (cache : VectorSceneCache K)
    (relative : K × Point K) : Prop :=
  ∃ window stats next replayed, self.window = some window ∧
    self.element.draw cache.stats cache.state window =
      some (stats, cache.state.getD .new, next) ∧
    next = { window with scene := next.scene } ∧
    next.scene.paintOperations = window.scene.paintOperations ++ replayed ∧
    ∀ clip point, shownAt clip replayed point =
      if ((Primitive.transformMask captured.contentMask relative.1 relative.2).scale
          self.scaleFactor).bounds.Contains point ∧ clip.Contains point then
        (captured.element.child.content.transformed self.scaleFactor relative.1
          relative.2).drawnAt self.scaleFactor point
      else []

namespace VectorFrame

/-- The frame with a child that draws a scene through the camera. -/
def showing (self : VectorFrame K) (drawing : PaintedContent K) : VectorFrame K :=
  { self with
    element :=
      { self.element with
        child :=
          { content := drawing.transformed self.scaleFactor self.element.transform.scale
              self.element.transform.translation
            hitboxes := 0
            deferredDraws := 0
            mouseListeners := 0
            inputHandlers := 0
            cursorStyles := 0 } } }

/-- What the element shows at a point inside the mask of the frame. -/
def shown (self : VectorFrame K) (cache : VectorSceneCache K) (point : Point K) :
    Option (List (Primitive K)) := do
  let window ← self.window
  let (_, _, next) ← self.element.draw cache.stats cache.state window
  return shownAt (self.contentMask.scale self.scaleFactor).bounds
    (next.scene.paintOperations.drop window.scene.len) point

/-- The tests of the hit pass for what the captured frame left. -/
def Hits (self captured : VectorFrame K) (relative : K × Point K) : Prop :=
  captured.element.revision = self.element.revision ∧
    captured.scaleFactor = self.scaleFactor ∧
    captured.element.coverage.contains self.element.viewport = true ∧
    self.element.transform.relativeTo captured.element.transform = some relative

/-- Whatever is drawn through the camera, the frame shows after the captured one what it
would show without a cache. -/
def ShowsFresh (self captured : VectorFrame K) : Prop :=
  ∀ drawing cache, VectorSceneCache.run [some (captured.showing drawing)] = some cache →
    ∀ point, (self.showing drawing).shown cache point =
      (self.showing drawing).shown .new point

end VectorFrame

theorem PaintedContent.transformed_transformed (content : PaintedContent K) (scaleFactor : K)
    {scale scale' : K} (nonzero : scale ≠ 0) (nonzero' : scale' ≠ 0)
    (translation translation' : Point K) :
    (content.transformed scaleFactor scale translation).transformed scaleFactor scale'
        translation' =
      content.transformed scaleFactor (scale' * scale)
        (transformPoint translation scale' translation') := by
  have scaled : (transformPoint translation scale' translation').scale scaleFactor =
      transformPoint (translation.scale scaleFactor) scale' (translation'.scale scaleFactor) := by
    simp only [transformPoint, Point.scale, Point.mk.injEq]
    constructor
    · ring
    · ring
  induction content with
  | nothing => rfl
  | primitive item rest ih =>
      rw [transformed, transformed, transformed, ih, scaled,
        Primitive.transformed_transformed item nonzero nonzero']
  | layer bounds inside rest ihInside ihRest =>
      rw [transformed, transformed, transformed, ihInside, ihRest,
        Primitive.transformBounds_transformBounds]
  | masked mask inside rest ihInside ihRest =>
      rw [transformed, transformed, transformed, ihInside, ihRest,
        Primitive.transformMask_transformMask]

/-- The relative transform takes what was drawn through the captured camera to what is drawn
through the current one. -/
theorem VectorSceneTransform.transformed_relativeTo {current captured : VectorSceneTransform K}
    {relative : K × Point K} (relates : current.relativeTo captured = some relative)
    (drawing : PaintedContent K) (scaleFactor : K) :
    (drawing.transformed scaleFactor captured.scale captured.translation).transformed scaleFactor
        relative.1 relative.2 =
      drawing.transformed scaleFactor current.scale current.translation := by
  rcases relativeTo_eq_some relates with ⟨-, capturedPos, relativePos, scale, translation⟩
  rw [PaintedContent.transformed_transformed _ _ capturedPos.ne' relativePos.ne']
  congr 1
  · rw [scale, div_mul_cancel₀ _ capturedPos.ne']
  · rw [translation]
    apply Point.eq_of_coordinates
    · exact add_sub_cancel _ _
    · exact add_sub_cancel _ _

namespace VectorFrame

theorem shown_eq (self : VectorFrame K) {cache : VectorSceneCache K} {window next : VectorWindow K}
    {stats : VectorSceneCacheStats} {state : VectorSceneState K}
    {logged : List (PaintOperation K)} (isWindow : self.window = some window)
    (draws : self.element.draw cache.stats cache.state window = some (stats, state, next))
    (log : next.scene.paintOperations = window.scene.paintOperations ++ logged)
    (point : Point K) :
    self.shown cache point =
      some (shownAt (self.contentMask.scale self.scaleFactor).bounds logged point) := by
  rw [shown, isWindow]
  change (self.element.draw cache.stats cache.state window).bind _ = _
  rw [draws]
  change some (shownAt _ (next.scene.paintOperations.drop window.scene.paintOperations.length)
    point) = _
  rw [log, List.drop_left]

section Shown

variable [IsStrictOrderedRing K]

/-- Without a hit, the child shows through the mask. -/
theorem shown_of_miss (self : VectorFrame K) {cache : VectorSceneCache K}
    (misses : self.element.relativeTransform (cache.state.getD .new) self.scaleFactor = none)
    (point : Point K) :
    self.shown cache point =
      some (if (self.contentMask.scale self.scaleFactor).bounds.Contains point then
        self.element.child.content.drawnAt self.scaleFactor point else []) := by
  rcases CachedVectorSceneTranslation.draw_of_miss self cache.stats cache.state misses with
    ⟨window, next, stats, state, logged, isWindow, draws, log, loggedAs, -, -⟩
  rw [shown_eq self isWindow draws log, loggedAs.shownAt, shownAt_operations self.scaleFactor_pos]
  simp only [and_self]

/-- A hit shows the child of the captured frame, moved, through both masks. -/
theorem shown_of_hit (self captured : VectorFrame K) {cache : VectorSceneCache K}
    {state : VectorSceneState K} (isState : cache.state = some state)
    (captures : captured.Captures state) (sameScale : captured.scaleFactor = self.scaleFactor)
    {relative : K × Point K}
    (hits : self.element.relativeTransform state self.scaleFactor = some relative)
    (point : Point K) :
    self.shown cache point =
      some (if ((Primitive.transformMask captured.contentMask relative.1 relative.2).scale
          self.scaleFactor).bounds.Contains point ∧
          (self.contentMask.scale self.scaleFactor).bounds.Contains point then
        (captured.element.child.content.transformed self.scaleFactor relative.1
          relative.2).drawnAt self.scaleFactor point
      else []) := by
  have stateHits : self.element.relativeTransform (cache.state.getD .new) self.scaleFactor =
      some relative := by
    rw [isState]
    exact hits
  rcases CachedVectorSceneTranslation.draw_of_hit self cache.stats cache.state stateHits with
    ⟨window, next, replayed, isWindow, draws, -, log, loggedAs⟩
  have relates := (CachedVectorSceneTranslation.relativeTransform_eq_some hits).2.2.2.2
  have positive := (VectorSceneTransform.relativeTo_eq_some relates).2.2.1
  have operations := captures.operations
  rw [sameScale] at operations
  rw [isState, Option.getD_some] at loggedAs
  rw [shown_eq self isWindow draws log, loggedAs.shownAt,
    (operations.map_transformed positive _).shownAt,
    ← PaintedContent.operations_transformed self.scaleFactor positive,
    shownAt_operations self.scaleFactor_pos]

end Shown

/-- The first frame of a run leaves what it captured. -/
theorem captures_of_run {captured : VectorFrame K} {cache : VectorSceneCache K}
    (isRun : VectorSceneCache.run [some captured] = some cache) :
    ∃ state logged, cache.state = some state ∧
      LoggedAs (captured.element.child.content.operations captured.scaleFactor
        captured.contentMask) logged ∧
      (state.ready = true → captured.Captures state) ∧
      (captured.element.transform.isValid = true → captured.element.child.AddsNothing →
        (∀ operation ∈ logged, Scene.IsVector operation) → state.ready = true) := by
  have misses : captured.element.relativeTransform ((none : Option (VectorSceneState K)).getD .new)
      captured.scaleFactor = none := rfl
  rcases CachedVectorSceneTranslation.draw_of_miss captured ⟨0, 0, 0, 0⟩ none misses with
    ⟨window, next, stats, state, logged, isWindow, draws, -, loggedAs, captures, ready⟩
  have steps : VectorSceneCache.run [some captured] = some ⟨stats, some state⟩ := by
    change (captured.window.bind _).bind _ = _
    rw [isWindow, Option.bind_some, VectorSceneCache.new, draws]
    rfl
  rcases Option.some.inj (isRun.symm.trans steps) with rfl
  exact ⟨state, logged, rfl, loggedAs, captures, ready⟩

theorem relativeTransform_of_hits {self captured : VectorFrame K} {relative : K × Point K}
    (hits : self.Hits captured relative) {state : VectorSceneState K}
    (ready : state.ready = true) (captures : captured.Captures state) :
    self.element.relativeTransform state self.scaleFactor = some relative := by
  rcases hits with ⟨revision, scaleFactor, covered, relates⟩
  rw [CachedVectorSceneTranslation.relativeTransform, if_pos, captures.capturedTransform]
  · exact relates
  · rw [captures.revision, captures.scaleFactor, captures.coverage, revision, scaleFactor, covered,
      ready, beq_self_eq_true, decide_eq_true rfl]
    rfl

end VectorFrame

/-- A quad, as it is seen through a camera. -/
def PaintedContent.quadSeen (transform : VectorSceneTransform K) (scaleFactor : K)
    (bounds : Bounds K) : PaintedContent K :=
  let inverse := 1 / transform.scale
  let translation := transform.translation.scale scaleFactor
  .primitive
    (.quad ⟨0, transformBounds bounds inverse
        ⟨-(translation.x * inverse), -(translation.y * inverse)⟩,
      ⟨⟨⟨0, 0⟩, ⟨0, 0⟩⟩⟩, ⟨0, 0, 0, 0⟩, ⟨0, 0, 0, 0⟩, .unit⟩) .nothing

namespace VectorFrame

/-- It is drawn where it is seen. -/
theorem drawnAt_quadSeen (transform : VectorSceneTransform K) (nonzero : transform.scale ≠ 0)
    (scaleFactor : K) (bounds : Bounds K) :
    ∃ appearance, ∀ point,
      (((PaintedContent.quadSeen transform scaleFactor bounds).transformed scaleFactor
        transform.scale transform.translation).drawnAt scaleFactor point) =
          if bounds.Contains point then [appearance] else [] := by
  let inverse := 1 / transform.scale
  let translation := transform.translation.scale scaleFactor
  have seen : transformBounds (transformBounds bounds inverse
      ⟨-(translation.x * inverse), -(translation.y * inverse)⟩) transform.scale translation =
        bounds := by
    have whole : transform.scale * inverse = 1 := mul_one_div_cancel nonzero
    have back : ∀ offset : K, -(offset * inverse) * transform.scale + offset = 0 := by
      intro offset
      rw [neg_mul, mul_assoc, mul_comm inverse, whole, mul_one, neg_add_cancel]
    rw [Primitive.transformBounds_transformBounds, whole]
    simp only [transformPoint, back, transformBounds, mul_one, add_zero]
  apply Exists.intro _
  intro point
  rw [PaintedContent.quadSeen, PaintedContent.transformed, PaintedContent.transformed,
    PaintedContent.drawnAt, PaintedContent.drawnAt, List.append_nil]
  change (if (transformBounds _ _ _).Contains point then _ else _) = _
  rw [seen]

variable [IsStrictOrderedRing K]

/-- A window of 100 pixels that shows a scene from the given place, without a child. -/
def sample (translation : Point ℚ) (contentMask : ContentMask ℚ) : VectorFrame ℚ where
  element :=
    { revision := 1
      coverage := ⟨⟨⟨-50, -50⟩, ⟨300, 300⟩⟩⟩
      viewport := ⟨⟨0, 0⟩, ⟨100, 100⟩⟩
      transform := ⟨1, translation⟩
      child := ⟨.nothing, 0, 0, 0, 0, 0⟩ }
  scaleFactor := 2
  scaleFactor_pos := by decide +kernel
  contentMask
  painted := []
  hitboxes := 0
  deferredDraws := 0
  mouseListeners := 0
  inputHandlers := 0
  cursorStyles := 0

end VectorFrame

namespace VectorSceneCache

end VectorSceneCache

end Gpui
