import Gpui.Scene.PaintedContent

/-!
# What replayed operations show

The log of a scene leaves out what its masks hide and keeps the masks.  Replayed under a
transform, it shows at a point what the content shows there, where the moved mask lets it
through.
-/

namespace Gpui

variable {K : Type} [Field K] [LinearOrder K]

/-- A primitive without its order and its mask. -/
def Primitive.appearance (primitive : Primitive K) : Primitive K :=
  (primitive.withOrder 0 0).withContentMask ⟨⟨⟨0, 0⟩, ⟨0, 0⟩⟩⟩

namespace PaintOperation

/-- What an operation shows at a point that a clip lets through. -/
def shownAt (clip : Bounds K) (point : Point K) : PaintOperation K → Option (Primitive K)
  | .primitive item =>
      if (Scene.clippedBounds item).Contains point ∧ clip.Contains point then
        some item.appearance
      else none
  | _ => none

/-- The scene drops the operation. -/
def hidden : PaintOperation K → Bool
  | .primitive item => (Scene.clippedBounds item).isEmpty
  | _ => false

omit [Field K] [LinearOrder K] in
def withOrder (order : DrawOrder) (pathId : Nat) : PaintOperation K → PaintOperation K
  | .primitive item => .primitive (item.withOrder order pathId)
  | operation => operation

end PaintOperation

/-- What operations show at a point, in the order in which they paint. -/
def shownAt (clip : Bounds K) (operations : List (PaintOperation K)) (point : Point K) :
    List (Primitive K) :=
  operations.filterMap (PaintOperation.shownAt clip point)

/-- What content draws at a point under no mask but its own. -/
def PaintedContent.drawnAt (scaleFactor : K) (point : Point K) :
    PaintedContent K → List (Primitive K)
  | nothing => []
  | primitive item rest =>
      (if item.bounds.Contains point then [item.appearance] else []) ++
        rest.drawnAt scaleFactor point
  | layer _ inside rest => inside.drawnAt scaleFactor point ++ rest.drawnAt scaleFactor point
  | masked mask inside rest =>
      (if (mask.scale scaleFactor).bounds.Contains point then
        inside.drawnAt scaleFactor point else []) ++ rest.drawnAt scaleFactor point

/-! ## Content under a mask -/

omit [LinearOrder K] in
theorem Primitive.appearance_withContentMask (primitive : Primitive K)
    (contentMask : ContentMask K) :
    (primitive.withContentMask contentMask).appearance = primitive.appearance := by
  cases primitive <;> rfl

omit [LinearOrder K] in
theorem Primitive.appearance_withOrder (primitive : Primitive K) (order : DrawOrder)
    (pathId : Nat) : (primitive.withOrder order pathId).appearance = primitive.appearance := by
  cases primitive <;> rfl

theorem shownAt_append (clip : Bounds K) (first second : List (PaintOperation K))
    (point : Point K) :
    shownAt clip (first ++ second) point =
      shownAt clip first point ++ shownAt clip second point :=
  List.filterMap_append

theorem shownAt_cons (clip : Bounds K) (operation : PaintOperation K)
    (operations : List (PaintOperation K)) (point : Point K) :
    shownAt clip (operation :: operations) point =
      (operation.shownAt clip point).toList ++ shownAt clip operations point := by
  rw [shownAt, List.filterMap_cons]
  cases operation.shownAt clip point with
  | none => rfl
  | some shown => rfl

section Masks

variable [IsStrictOrderedRing K]

/-- Where both the mask and the clip let a point through, the content is drawn. -/
theorem shownAt_operations {scaleFactor : K} (positive : 0 < scaleFactor)
    (content : PaintedContent K) (contentMask : ContentMask K) (clip : Bounds K)
    (point : Point K) :
    shownAt clip (content.operations scaleFactor contentMask) point =
      if (contentMask.scale scaleFactor).bounds.Contains point ∧ clip.Contains point then
        content.drawnAt scaleFactor point
      else [] := by
  induction content generalizing contentMask with
  | nothing => exact (ite_self _).symm
  | primitive item rest ih =>
      have shows : PaintOperation.shownAt clip point
          (.primitive (item.withContentMask (contentMask.scale scaleFactor))) =
            if (item.bounds.Contains point ∧
              (contentMask.scale scaleFactor).bounds.Contains point) ∧ clip.Contains point then
              some item.appearance
            else none := by
        rw [PaintOperation.shownAt, Primitive.appearance_withContentMask, Scene.clippedBounds,
          PaintedContent.bounds_withContentMask, PaintedContent.contentMask_withContentMask]
        simp only [Bounds.contains_intersect]
      rw [PaintedContent.operations, shownAt_cons, shows, ih, PaintedContent.drawnAt]
      by_cases through : (contentMask.scale scaleFactor).bounds.Contains point ∧
          clip.Contains point
      · rw [if_pos through, if_pos through]
        by_cases drawn : item.bounds.Contains point
        · rw [if_pos drawn, if_pos ⟨⟨drawn, through.1⟩, through.2⟩]
          rfl
        · rw [if_neg drawn, if_neg fun shown => drawn shown.1.1]
          rfl
      · rw [if_neg through, if_neg through, if_neg fun shown => through ⟨shown.1.2, shown.2⟩]
        rfl
  | layer bounds inside rest ihInside ihRest =>
      have contents : shownAt clip (inside.operations scaleFactor contentMask ++
          rest.operations scaleFactor contentMask) point =
            if (contentMask.scale scaleFactor).bounds.Contains point ∧ clip.Contains point then
              inside.drawnAt scaleFactor point ++ rest.drawnAt scaleFactor point
            else [] := by
        rw [shownAt_append, ihInside, ihRest]
        by_cases through : (contentMask.scale scaleFactor).bounds.Contains point ∧
            clip.Contains point
        · simp only [if_pos through]
        · simp only [if_neg through, List.append_nil]
      rw [PaintedContent.operations, PaintedContent.drawnAt, ← contents]
      by_cases clipped : (bounds.intersect contentMask.bounds).isEmpty = true
      · simp only [if_pos clipped]
      · simp only [if_neg clipped, shownAt_cons, shownAt_append, PaintOperation.shownAt,
          Option.toList_none, List.nil_append]
  | masked mask inside rest ihInside ihRest =>
      have both : ((mask.intersect contentMask).scale scaleFactor).bounds.Contains point ↔
          (mask.scale scaleFactor).bounds.Contains point ∧
            (contentMask.scale scaleFactor).bounds.Contains point := by
        rw [← Bounds.contains_intersect]
        exact iff_of_eq (congrArg (Bounds.Contains · point)
          (Bounds.intersect_scale mask.bounds contentMask.bounds positive).symm)
      rw [PaintedContent.operations, shownAt_append, ihInside, ihRest, PaintedContent.drawnAt]
      by_cases through : (contentMask.scale scaleFactor).bounds.Contains point ∧
          clip.Contains point
      · rw [if_pos through, if_pos through]
        by_cases within : (mask.scale scaleFactor).bounds.Contains point
        · rw [if_pos within, if_pos ⟨both.mpr ⟨within, through.1⟩, through.2⟩]
        · rw [if_neg within, if_neg fun shown => within (both.mp shown.1).1]
      · rw [if_neg through, if_neg through,
          if_neg fun shown => through ⟨(both.mp shown.1).2, shown.2⟩]
        rfl

end Masks

/-! ## The log of what was painted -/

/-- The log of operations: those that are hidden are left out, the others have their orders. -/
inductive LoggedAs : List (PaintOperation K) → List (PaintOperation K) → Prop where
  | nil : LoggedAs [] []
  | hidden {operation : PaintOperation K} {operations logged : List (PaintOperation K)}
      (hidden : operation.hidden = true) (rest : LoggedAs operations logged) :
      LoggedAs (operation :: operations) logged
  | kept {operation : PaintOperation K} {operations logged : List (PaintOperation K)}
      (order : DrawOrder) (pathId : Nat) (rest : LoggedAs operations logged) :
      LoggedAs (operation :: operations) (operation.withOrder order pathId :: logged)

namespace Scene

/-- A replayed operation is hidden, or logged with its order. -/
theorem replayOperation_loggedAs {scene next : Scene K} {operation : PaintOperation K}
    (replays : scene.replayOperation operation = some next) :
    operation.hidden = true ∧ next = scene ∨
      ∃ order pathId, next.paintOperations =
        scene.paintOperations ++ [operation.withOrder order pathId] := by
  cases operation with
  | primitive item =>
      cases clipped : (clippedBounds item).isEmpty with
      | true =>
          rw [replayOperation, insertPrimitive_of_isEmpty clipped] at replays
          exact .inl ⟨clipped, (Option.some.inj replays).symm⟩
      | false =>
          rw [replayOperation, insertPrimitive, if_neg (Bool.eq_false_iff.mp clipped)] at replays
          rcases Option.bind_eq_some_iff.mp replays with ⟨⟨order, taken⟩, took, same⟩
          rcases Option.some.inj same with rfl
          apply Or.inr
          apply Exists.intro order
          apply Exists.intro taken.paths.length
          change (taken.push _).paintOperations ++ _ = _
          rw [push_paintOperations, takeOrder_paintOperations took]
          rfl
  | startLayer bounds =>
      rcases Option.bind_eq_some_iff.mp replays with ⟨⟨order, tree⟩, inserted, same⟩
      rcases Option.some.inj same with rfl
      exact .inr ⟨order, 0, rfl⟩
  | endLayer =>
      rcases Option.some.inj replays with rfl
      exact .inr ⟨0, 0, rfl⟩

theorem loggedAs_foldlM {scene next : Scene K} {operations : List (PaintOperation K)}
    (replays : operations.foldlM replayOperation scene = some next) :
    ∃ logged, next.paintOperations = scene.paintOperations ++ logged ∧
      LoggedAs operations logged := by
  induction operations generalizing scene with
  | nil =>
      rcases Option.some.inj replays with rfl
      exact ⟨[], (List.append_nil _).symm, .nil⟩
  | cons operation operations ih =>
      rw [List.foldlM_cons] at replays
      rcases Option.bind_eq_some_iff.mp replays with ⟨middle, first, rest⟩
      rcases ih rest with ⟨logged, log, loggedAs⟩
      rcases replayOperation_loggedAs first with ⟨hidden, rfl⟩ | ⟨order, pathId, logs⟩
      · exact ⟨logged, log, .hidden hidden loggedAs⟩
      · apply Exists.intro (operation.withOrder order pathId :: logged)
        constructor
        · rw [log, logs, List.append_assoc]
          rfl
        · exact .kept order pathId loggedAs

end Scene

namespace PaintOperation

theorem transformed_withOrder (operation : PaintOperation K) (order : DrawOrder) (pathId : Nat)
    (scale : K) (translation : Point K) :
    (operation.withOrder order pathId).transformed scale translation =
      (operation.transformed scale translation).withOrder order pathId := by
  cases operation with
  | primitive item =>
      exact congrArg PaintOperation.primitive
        (Primitive.transformed_withOrder item scale translation order pathId).symm
  | startLayer bounds => rfl
  | endLayer => rfl

omit [Field K] [LinearOrder K] in
theorem isVector_withOrder (operation : PaintOperation K) (order : DrawOrder) (pathId : Nat) :
    Scene.IsVector (operation.withOrder order pathId) ↔ Scene.IsVector operation := by
  cases operation with
  | primitive item =>
      simp only [Scene.IsVector, withOrder, kind?, Primitive.withOrder_kind]
  | startLayer bounds => exact Iff.rfl
  | endLayer => exact Iff.rfl

theorem shownAt_withOrder (operation : PaintOperation K) (order : DrawOrder) (pathId : Nat)
    (clip : Bounds K) (point : Point K) :
    (operation.withOrder order pathId).shownAt clip point = operation.shownAt clip point := by
  cases operation with
  | primitive item =>
      simp only [withOrder, shownAt, Scene.clippedBounds_withOrder,
        Primitive.appearance_withOrder]
  | startLayer bounds => rfl
  | endLayer => rfl

variable [IsStrictOrderedRing K]

theorem hidden_transformed {scale : K} (positive : 0 < scale) (translation : Point K)
    (operation : PaintOperation K) :
    (operation.transformed scale translation).hidden = operation.hidden := by
  cases operation with
  | primitive item =>
      simp only [transformed, hidden, Scene.clippedBounds_transformed positive,
        transformBounds_isEmpty positive]
  | startLayer bounds => rfl
  | endLayer => rfl

theorem shownAt_of_hidden {operation : PaintOperation K} (isHidden : operation.hidden = true)
    (clip : Bounds K) (point : Point K) : operation.shownAt clip point = none := by
  cases operation with
  | primitive item =>
      apply if_neg
      rintro ⟨contains, -⟩
      exact Bool.false_ne_true (contains.isEmpty_eq_false.symm.trans isHidden)
  | startLayer bounds => rfl
  | endLayer => rfl

end PaintOperation

namespace LoggedAs

variable {operations logged : List (PaintOperation K)}

theorem isVector (loggedAs : LoggedAs operations logged)
    (isVector : ∀ operation ∈ operations, Scene.IsVector operation) :
    ∀ operation ∈ logged, Scene.IsVector operation := by
  induction loggedAs with
  | nil => exact isVector
  | hidden hidden rest ih =>
      exact ih fun operation member => isVector operation (List.mem_cons_of_mem _ member)
  | kept order pathId rest ih =>
      intro operation member
      rcases List.mem_cons.mp member with rfl | later
      · rw [PaintOperation.isVector_withOrder]
        exact isVector _ List.mem_cons_self
      · exact ih (fun operation member => isVector operation (List.mem_cons_of_mem _ member))
          operation later

variable [IsStrictOrderedRing K]

/-- The log shows what the operations show. -/
theorem shownAt (loggedAs : LoggedAs operations logged) (clip : Bounds K) (point : Point K) :
    Gpui.shownAt clip logged point = Gpui.shownAt clip operations point := by
  induction loggedAs with
  | nil => rfl
  | hidden hidden rest ih =>
      rw [shownAt_cons, PaintOperation.shownAt_of_hidden hidden, ih]
      rfl
  | kept order pathId rest ih =>
      rw [shownAt_cons, shownAt_cons, PaintOperation.shownAt_withOrder, ih]

theorem map_transformed (loggedAs : LoggedAs operations logged) {scale : K}
    (positive : 0 < scale) (translation : Point K) :
    LoggedAs (operations.map (.transformed scale translation))
      (logged.map (.transformed scale translation)) := by
  induction loggedAs with
  | nil => exact .nil
  | hidden hidden rest ih =>
      exact .hidden ((PaintOperation.hidden_transformed positive translation _).trans hidden) ih
  | kept order pathId rest ih =>
      rw [List.map_cons, List.map_cons, PaintOperation.transformed_withOrder]
      exact .kept order pathId ih

end LoggedAs

/-! ## Capturing and replaying -/

namespace Scene

/-- The scene was made by painting. -/
def Built (scene : Scene K) : Prop :=
  ∃ operations : List (PaintOperation K), operations.foldlM replayOperation empty = some scene

theorem Built.exists_foldlM {scene : Scene K} (built : scene.Built)
    (operations : List (PaintOperation K)) :
    ∃ next, operations.foldlM replayOperation scene = some next := by
  rcases built with ⟨before, isScene⟩
  rcases replay_isSome (before ++ operations) with ⟨next, replays⟩
  rw [List.foldlM_append, isScene] at replays
  exact ⟨next, replays⟩

omit [Field K] [LinearOrder K] in
theorem slice_append {α : Type} (front back : List α) :
    slice (front ++ back) front.length (front ++ back).length = some back := by
  rw [slice, if_pos, List.drop_left, List.length_append, Nat.add_sub_cancel_left, List.take_length]
  constructor
  · rw [List.length_append]
    exact Nat.le_add_right _ _
  · exact le_rfl

omit [Field K] [LinearOrder K] in
theorem isVector_of_cloneVectorOperation {operation cloned : PaintOperation K}
    (clones : cloneVectorOperation operation = some cloned) :
    cloned = operation ∧ IsVector operation := by
  cases operation with
  | primitive primitive =>
      cases primitive with
      | surface surface => cases clones
      | rasterTile tile => cases clones
      | _ =>
          rcases Option.some.inj clones with rfl
          exact ⟨rfl, nofun, nofun⟩
  | startLayer bounds =>
      rcases Option.some.inj clones with rfl
      exact ⟨rfl, nofun, nofun⟩
  | endLayer =>
      rcases Option.some.inj clones with rfl
      exact ⟨rfl, nofun, nofun⟩

omit [Field K] [LinearOrder K] in
theorem isVector_of_mapM {operations cloned : List (PaintOperation K)}
    (clones : operations.mapM cloneVectorOperation = some cloned) :
    cloned = operations ∧ ∀ operation ∈ operations, IsVector operation := by
  induction operations generalizing cloned with
  | nil =>
      rcases Option.some.inj clones with rfl
      exact ⟨rfl, nofun⟩
  | cons operation operations ih =>
      rw [List.mapM_cons] at clones
      rcases Option.bind_eq_some_iff.mp clones with ⟨first, isFirst, rest⟩
      rcases Option.bind_eq_some_iff.mp rest with ⟨more, isMore, same⟩
      rcases Option.some.inj same with rfl
      rcases isVector_of_cloneVectorOperation isFirst with ⟨rfl, isVector⟩
      rcases ih isMore with ⟨rfl, areVector⟩
      constructor
      · rfl
      · intro other member
        rcases List.mem_cons.mp member with rfl | later
        · exact isVector
        · exact areVector other later

omit [Field K] [LinearOrder K] in
theorem mapM_of_isVector {operations : List (PaintOperation K)}
    (isVector : ∀ operation ∈ operations, IsVector operation) :
    operations.mapM cloneVectorOperation = some operations := by
  induction operations with
  | nil => rfl
  | cons operation operations ih =>
      have rest := ih fun later member => isVector later (List.mem_cons_of_mem _ member)
      rw [List.mapM_cons, cloneVectorOperation_of_isVector (isVector _ List.mem_cons_self), rest]
      rfl

variable [IsStrictOrderedRing K] {scaleFactor scale : K}

end Scene

end Gpui
