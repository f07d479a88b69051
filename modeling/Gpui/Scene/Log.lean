import Gpui.Scene.Calls

/-!
# The log of a scene

Replaying the log of a scene into an empty one builds the scene again: a primitive is
logged with the order it took, and takes it again.  Text that is replayed from a cache
is not logged, so it must not have put anything into the scene.
-/

namespace Gpui

variable {K : Type}

namespace Primitive

theorem withOrder_withOrder (order : DrawOrder) (pathId : Nat) (primitive : Primitive K)
    (before : DrawOrder) (idBefore : Nat) :
    (primitive.withOrder before idBefore).withOrder order pathId =
      primitive.withOrder order pathId := by
  cases primitive <;> rfl

end Primitive

variable [Field K] [LinearOrder K]

/-- What `replay_vector_transform` makes of an operation. -/
def PaintOperation.transformed (scale : K) (translation : Point K) :
    PaintOperation K → PaintOperation K
  | .primitive item => .primitive (item.transformed scale translation)
  | .startLayer bounds => .startLayer (transformBounds bounds scale translation)
  | .endLayer => .endLayer

/-- The kind of primitive an operation paints. -/
def PaintOperation.kind? : PaintOperation K → Option PrimitiveKind
  | .primitive item => some item.kind
  | _ => none

namespace Scene

/-! ## Logged operations -/

theorem clippedBounds_withOrder (order : DrawOrder) (pathId : Nat) (primitive : Primitive K) :
    clippedBounds (primitive.withOrder order pathId) = clippedBounds primitive := by
  cases primitive <;> rfl

theorem takeOrder_paintOperations {scene taken : Scene K} {bounds : Bounds K} {order : DrawOrder}
    (took : scene.takeOrder bounds = some (order, taken)) :
    taken.paintOperations = scene.paintOperations := by
  rw [takeOrder] at took
  split at took
  next =>
    rcases Option.some.inj took with ⟨⟩
    rfl
  next =>
    rcases Option.bind_eq_some_iff.mp took with ⟨⟨order', tree⟩, _, same⟩
    rcases Option.some.inj same with ⟨⟩
    rfl

/-- A replayed operation is dropped, or logged in a form that has the same effect. -/
theorem replayOperation_logs {scene next : Scene K} {operation : PaintOperation K}
    (replays : scene.replayOperation operation = some next) :
    next = scene ∨ ∃ logged, next.paintOperations = scene.paintOperations ++ [logged] ∧
      logged.kind? = operation.kind? ∧ scene.replayOperation logged = some next := by
  cases operation with
  | primitive primitive =>
      cases clipped : (clippedBounds primitive).isEmpty with
      | true =>
          rw [replayOperation, insertPrimitive_of_isEmpty clipped] at replays
          exact Or.inl (Option.some.inj replays).symm
      | false =>
          rw [replayOperation, insertPrimitive, if_neg (Bool.eq_false_iff.mp clipped)] at replays
          rcases Option.bind_eq_some_iff.mp replays with ⟨⟨order, taken⟩, took, same⟩
          rcases Option.some.inj same with rfl
          refine Or.inr ⟨.primitive (primitive.withOrder order taken.paths.length), ?_,
            congrArg some (Primitive.withOrder_kind ..), ?_⟩
          · change (taken.push _).paintOperations ++ _ = _
            rw [push_paintOperations, takeOrder_paintOperations took]
          · have same := clippedBounds_withOrder order taken.paths.length primitive
            rw [replayOperation, insertPrimitive_of_takeOrder (same ▸ clipped) (same ▸ took), store,
              Primitive.withOrder_withOrder]
            rfl
  | startLayer bounds =>
      rcases Option.bind_eq_some_iff.mp replays with ⟨⟨order, tree⟩, inserted, same⟩
      rcases Option.some.inj same with rfl
      exact Or.inr ⟨.startLayer bounds, rfl, rfl, replays⟩
  | endLayer =>
      rcases Option.some.inj replays with rfl
      exact Or.inr ⟨.endLayer, rfl, rfl, rfl⟩

/-- The log builds the scene from nothing. -/
def Logged (scene : Scene K) : Prop :=
  scene.paintOperations.foldlM replayOperation empty = some scene

theorem logged_empty : Logged (empty : Scene K) := rfl

theorem Logged.replayOperation {scene next : Scene K} (logged : Logged scene)
    {operation : PaintOperation K} (replays : scene.replayOperation operation = some next) :
    Logged next := by
  rcases replayOperation_logs replays with rfl | ⟨entry, log, _, again⟩
  · exact logged
  · rw [Logged, log, List.foldlM_append, logged]
    change ([entry].foldlM _ scene) = some next
    rw [List.foldlM_cons, again]
    rfl

theorem Logged.foldlM {scene next : Scene K} (logged : Logged scene)
    {operations : List (PaintOperation K)}
    (replays : operations.foldlM Scene.replayOperation scene = some next) : Logged next := by
  induction operations generalizing scene with
  | nil =>
      rcases Option.some.inj replays with rfl
      exact logged
  | cons operation operations ih =>
      rw [List.foldlM_cons] at replays
      rcases Option.bind_eq_some_iff.mp replays with ⟨middle, first, rest⟩
      exact ih (logged.replayOperation first) rest

theorem replayVectorOperation_eq (scale : K) (translation : Point K) (scene : Scene K)
    (operation : PaintOperation K) :
    replayVectorOperation scale translation scene operation =
      scene.replayOperation (operation.transformed scale translation) := by
  cases operation <;> rfl

theorem replayVectorTransform_eq (scene : Scene K) (operations : List (PaintOperation K))
    (scale : K) (translation : Point K) :
    scene.replayVectorTransform operations scale translation =
      (operations.map (.transformed scale translation)).foldlM Scene.replayOperation scene := by
  rw [replayVectorTransform, List.foldlM_map]
  congr 1
  funext scene operation
  exact replayVectorOperation_eq scale translation scene operation

/-! ## Text from a cache -/

/-- Layers that the content mask clips away, nothing in them, each closed again;
`depth` of them are open. -/
def Blank (originDelta : Point K) (contentMask : ContentMask K) :
    Nat → List (PaintOperation K) → Prop
  | depth, .startLayer bounds :: operations =>
      (Bounds.intersect { bounds with origin := bounds.origin.add originDelta }
        contentMask.bounds).isEmpty = true ∧
        Blank originDelta contentMask (depth + 1) operations
  | depth + 1, .endLayer :: operations => Blank originDelta contentMask depth operations
  | 0, [] => True
  | _, _ => False

/-- A scene with more open layers. -/
def opened (scene : Scene K) (orders : List DrawOrder) : Scene K :=
  { scene with layerStack := scene.layerStack ++ orders }

omit [Field K] [LinearOrder K] in
theorem opened_nil (scene : Scene K) : scene.opened [] = scene := by
  cases scene
  simp [opened]

omit [Field K] [LinearOrder K] in
theorem opened_opened (scene : Scene K) (orders more : List DrawOrder) :
    (scene.opened orders).opened more = scene.opened (orders ++ more) := by
  rw [opened, opened, opened, List.append_assoc]

theorem replayCachedText_blank {originDelta : Point K} {contentMask : ContentMask K}
    {transformation : TransformationMatrix K} {operations : List (PaintOperation K)}
    {scene : Scene K} (orders : List DrawOrder)
    (blank : Blank originDelta contentMask orders.length operations) :
    (scene.opened orders).replayCachedText operations originDelta contentMask transformation =
      some scene := by
  induction operations generalizing orders with
  | nil =>
      cases orders with
      | nil =>
          change some (scene.opened []) = some scene
          rw [opened_nil]
      | cons order orders => exact blank.elim
  | cons operation operations ih =>
      rw [replayCachedText, List.foldlM_cons]
      cases operation with
      | primitive primitive => cases orders <;> exact blank.elim
      | startLayer bounds =>
          rcases blank with ⟨clipped, rest⟩
          let order := (scene.opened orders).layerStack.getLast?.getD DrawOrder.MAX
          have pushes : replayCachedTextOperation originDelta contentMask transformation
              (scene.opened orders) (.startLayer bounds) =
                some ((scene.opened orders).opened [order]) := if_pos clipped
          rw [pushes, opened_opened]
          exact ih (orders ++ [order]) (by rwa [List.length_append])
      | endLayer =>
          rcases List.eq_nil_or_concat orders with rfl | ⟨before, order, rfl⟩
          · exact blank.elim
          · rw [List.concat_eq_append, List.length_append] at blank
            have pops : replayCachedTextOperation originDelta contentMask transformation
                (scene.opened (before.concat order)) .endLayer = some (scene.opened before) := by
              rw [replayCachedTextOperation, opened, opened, List.concat_eq_append,
                ← List.append_assoc, List.dropLast_concat]
            rw [pops]
            exact ih before blank

end Scene

namespace SceneCall

/-- Text from a cache puts nothing into the scene. -/
def Logs : SceneCall K → Prop
  | .replayCachedText operations originDelta contentMask _ =>
      Scene.Blank originDelta contentMask 0 operations
  | _ => True

theorem logged_apply {scene next : Scene K} {call : SceneCall K} (logged : scene.Logged)
    (logs : call.Logs) (applies : apply scene call = some next) : next.Logged := by
  cases call with
  | insertPrimitive primitive =>
      have replays : scene.replayOperation (.primitive primitive) = some next := applies
      exact logged.replayOperation replays
  | pushLayer bounds =>
      have replays : scene.replayOperation (.startLayer bounds) = some next := applies
      exact logged.replayOperation replays
  | popLayer =>
      have replays : scene.replayOperation .endLayer = some next := applies
      exact logged.replayOperation replays
  | replay start stop prevScene =>
      rcases Option.bind_eq_some_iff.mp applies with ⟨operations, _, replays⟩
      exact logged.foldlM replays
  | replayVectorTransform operations scale translation =>
      rw [apply, Scene.replayVectorTransform_eq] at applies
      exact logged.foldlM applies
  | replayCachedText operations originDelta contentMask transformation =>
      have same : apply scene (.replayCachedText operations originDelta contentMask transformation) =
          some scene := by
        have blank : (scene.opened []).replayCachedText operations originDelta contentMask
            transformation = some scene := Scene.replayCachedText_blank [] logs
        rwa [Scene.opened_nil] at blank
      rcases Option.some.inj (same.symm.trans applies) with rfl
      exact logged

theorem logged_of_run {calls : List (SceneCall K)} {scene : Scene K}
    (ran : run calls = some scene) (logs : ∀ call ∈ calls, call.Logs) : scene.Logged := by
  rw [run] at ran
  have start : (Scene.empty : Scene K).Logged := Scene.logged_empty
  generalize Scene.empty = before at ran start
  induction calls generalizing before with
  | nil =>
      rcases Option.some.inj ran with rfl
      exact start
  | cons call calls ih =>
      rw [List.foldlM_cons] at ran
      rcases Option.bind_eq_some_iff.mp ran with ⟨middle, first, rest⟩
      exact ih (fun later member => logs later (List.mem_cons_of_mem _ member)) middle rest
        (logged_apply start (logs call List.mem_cons_self) first)

/-- A glyph from a cache. -/
def cachedGlyph : List (SceneCall ℚ) :=
  [.replayCachedText
    [.primitive (.monochromeSprite
      { order := 1
        bounds := ⟨⟨0, 0⟩, ⟨4, 10⟩⟩
        contentMask := ⟨⟨⟨0, 0⟩, ⟨100, 100⟩⟩⟩
        color := ⟨0, 0, 0, 1⟩
        tile := ⟨⟨0, .monochrome⟩, 0, 0, ⟨⟨0, 0⟩, ⟨4, 10⟩⟩⟩
        transformation := .unit })]
    ⟨0, 0⟩ ⟨⟨⟨0, 0⟩, ⟨100, 100⟩⟩⟩ .unit]

end SceneCall

end Gpui
