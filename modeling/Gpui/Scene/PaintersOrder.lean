import Gpui.Scene.Calls
import Gpui.BoundsTree.Ordering

/-!
# Painter's order

Primitives and layers take their orders from one bounds tree.  A primitive
painted outside every layer has a tree entry of its own; the primitives of a
layer share the layer's entry, which covers them.  Orders rise along
overlapping entries, so whatever is painted later over an earlier primitive is
also emitted later.
-/

namespace Gpui

open Gpui.BoundsTree

variable {K : Type} [Field K] [LinearOrder K]

namespace SceneCall

/-! ## Bracketing -/

/-- Follow the layer that is open; calls outside the discipline have no result.
A kept primitive of a layer lies within the layer's bounds. -/
def layerStep : Option (Bounds K) → SceneCall K → Option (Option (Bounds K))
  | current, .insertPrimitive primitive =>
      if (Scene.clippedBounds primitive).isEmpty = false →
          ∀ layer ∈ current, layer.Covers (Scene.clippedBounds primitive)
      then some current else none
  | none, .pushLayer bounds => some (some bounds)
  | some _, .popLayer => some none
  | _, _ => none

/-- The layer open after `calls`. -/
def openLayer (calls : List (SceneCall K)) : Option (Option (Bounds K)) :=
  calls.foldlM layerStep none

/-- Only primitives and layers are painted, and the layers are bracketed, not
nested and large enough for their primitives. -/
def Bracketed (calls : List (SceneCall K)) : Prop :=
  openLayer calls = some none

/-- One layer stays open from call `first` to call `second`. -/
def SameLayer (calls : List (SceneCall K)) (first second : Nat) : Prop :=
  ∀ index, first ≤ index → index ≤ second →
    ∃ layer, openLayer (calls.take index) = some (some layer)

/-- The calls that may take an order from the bounds tree. -/
def takesOrder : SceneCall K → Bool
  | .popLayer => false
  | _ => true

/-- The primitive that the call at `index` stores. -/
def storedBy (calls : List (SceneCall K)) (index : Nat) : Option (Primitive K) := do
  let before ← run (calls.take index)
  match calls[index]? with
  | some (.insertPrimitive primitive) =>
      if (Scene.clippedBounds primitive).isEmpty then none
      else do
        let (order, before) ← before.takeOrder (Scene.clippedBounds primitive)
        return primitive.withOrder order before.paths.length
  | _ => none

/-- Both occur, the first only before the second. -/
def Precedes (items : List (Primitive K)) (first second : Primitive K) : Prop :=
  first ∈ items ∧ second ∈ items ∧
    ∀ early late : Nat, items[early]? = some first → items[late]? = some second → early < late

/-- Whatever is painted over an earlier primitive, and not in the same layer, is
emitted after it. -/
def PaintersOrder (calls : List (SceneCall K)) : Prop :=
  ∀ (early late : Nat) (first second : Primitive K), early < late →
    calls[early]? = some (.insertPrimitive first) →
    calls[late]? = some (.insertPrimitive second) →
    (Scene.clippedBounds first).isEmpty = false →
    (Scene.clippedBounds second).isEmpty = false →
    (Scene.clippedBounds first).intersects (Scene.clippedBounds second) = true →
    ¬ SameLayer calls early late →
    ∃ scene firstStored secondStored, run calls = some scene ∧
      storedBy calls early = some firstStored ∧ storedBy calls late = some secondStored ∧
      Precedes (scene.finish.batches.flatMap PrimitiveBatch.primitives) firstStored secondStored

/-! ## The invariant of painting -/

/-- A scene painted under the discipline, with the entries of its bounds tree;
the open layer has the last of them. -/
structure Painting (current : Option (Bounds K)) (scene : Scene K) (entries : List (Entry K)) :
    Prop where
  ranked : Ranked scene.primitiveBounds entries
  layer : match current with
    | none => scene.layerStack = []
    | some bounds => ∃ before order,
        entries = before ++ [(bounds, order)] ∧ scene.layerStack = [order]
  atMost : ∀ kind, ∀ primitive ∈ scene.vector kind, primitive.order.toNat ≤ entries.length

theorem painting_empty : Painting none (Scene.empty : Scene K) [] where
  ranked := ranked_empty
  layer := rfl
  atMost kind primitive member := by cases kind <;> simp [Scene.vector, Scene.empty] at member

/-- What one call does to a painted scene: `more` entries are added. -/
structure Advances (current : Option (Bounds K)) (scene : Scene K) (entries : List (Entry K))
    (next : Option (Bounds K)) (scene' : Scene K) (more : List (Entry K)) : Prop where
  painting : Painting next scene' (entries ++ more)
  grows : ∀ kind, scene.vector kind <+: scene'.vector kind
  opened : next.isSome = true → current = none → more ≠ []

theorem Advances.trans {current middle next : Option (Bounds K)} {scene scene' final : Scene K}
    {entries more evenMore : List (Entry K)}
    (first : Advances current scene entries middle scene' more)
    (second : Advances middle scene' (entries ++ more) next final evenMore) :
    Advances current scene entries next final (more ++ evenMore) where
  painting := by
    rw [← List.append_assoc]
    exact second.painting
  grows kind := (first.grows kind).trans (second.grows kind)
  opened nextOpen start := by
    cases middle with
    | none => simp [second.opened nextOpen rfl]
    | some layer => simp [first.opened rfl start]

theorem layerStep_insertPrimitive {current next : Option (Bounds K)} {primitive : Primitive K}
    (stepped : layerStep current (.insertPrimitive primitive) = some next) :
    next = current ∧ ((Scene.clippedBounds primitive).isEmpty = false →
      ∀ layer ∈ current, layer.Covers (Scene.clippedBounds primitive)) := by
  simp only [layerStep] at stepped
  split at stepped
  · exact ⟨(Option.some.inj stepped).symm, ‹_›⟩
  · exact absurd stepped (by simp)

/-- The order a primitive is stored with is that of the last entry, which covers
what is visible of the primitive. -/
theorem Painting.takeOrder {current : Option (Bounds K)} {scene : Scene K}
    {entries : List (Entry K)} (painting : Painting current scene entries) {bounds : Bounds K}
    (contained : ∀ layer ∈ current, layer.Covers bounds) (few : entries.length < 2 ^ 32 - 1) :
    ∃ order taken more before cover,
      scene.takeOrder bounds = some (order, taken) ∧
      Advances current scene entries current taken more ∧ more.length ≤ 1 ∧
      (current = none → more ≠ []) ∧
      entries ++ more = before ++ [(cover, order)] ∧ cover.Covers bounds := by
  have layered := painting.layer
  cases current with
  | none =>
      obtain ⟨order, tree', inserted, ranked⟩ := painting.ranked.insert few bounds
      refine ⟨order, { scene with primitiveBounds := tree' }, [(bounds, order)], entries, bounds,
        ?_, ⟨⟨ranked, layered, ?_⟩, fun kind => ?_, by simp⟩, by simp, by simp, rfl, .refl bounds⟩
      · simp only at layered
        simp [Scene.takeOrder, layered, inserted]
      · intro kind primitive member
        have earlier := painting.atMost kind primitive (by cases kind <;> exact member)
        simp only [List.length_append, List.length_singleton]
        omega
      · cases kind <;> exact List.prefix_rfl
  | some layer =>
      obtain ⟨before, order, split, stack_eq⟩ := layered
      refine ⟨order, scene, [], before, layer, ?_, ⟨?_, fun kind => List.prefix_rfl, by simp⟩,
        by simp, by simp, by simp [split], contained layer rfl⟩
      · simp [Scene.takeOrder, stack_eq]
      · simpa using painting

/-- Storing with the order of an entry keeps the invariant. -/
theorem Painting.store {current : Option (Bounds K)} {scene : Scene K}
    {entries : List (Entry K)} (painting : Painting current scene entries) {cover : Bounds K}
    {order : DrawOrder} (member : (cover, order) ∈ entries) (primitive : Primitive K) :
    Painting current (scene.store order primitive) entries where
  ranked := by simpa using painting.ranked
  layer := by simpa using painting.layer
  atMost := by
    intro kind stored storedMem
    rw [Scene.store_vector] at storedMem
    rcases List.mem_append.mp storedMem with earlier | new
    · exact painting.atMost kind stored earlier
    · split at new
      · obtain rfl := List.mem_singleton.mp new
        rw [Primitive.withOrder_order]
        exact painting.ranked.bounded _ member
      · exact absurd new (by simp)

/-- Storing a kept primitive. -/
theorem Painting.insertPrimitive {current next : Option (Bounds K)} {scene : Scene K}
    {entries : List (Entry K)} (painting : Painting current scene entries)
    {primitive : Primitive K}
    (stepped : layerStep current (.insertPrimitive primitive) = some next)
    (kept : (Scene.clippedBounds primitive).isEmpty = false)
    (few : entries.length < 2 ^ 32 - 1) :
    ∃ order taken more before cover,
      scene.takeOrder (Scene.clippedBounds primitive) = some (order, taken) ∧
      scene.insertPrimitive primitive = some (taken.store order primitive) ∧
      Advances current scene entries next (taken.store order primitive) more ∧
      more.length ≤ 1 ∧ (current = none → more ≠ []) ∧
      entries ++ more = before ++ [(cover, order)] ∧
      cover.Covers (Scene.clippedBounds primitive) := by
  obtain ⟨rfl, contained⟩ := layerStep_insertPrimitive stepped
  obtain ⟨order, taken, more, before, cover, took, advances, short, fresh, split, covers⟩ :=
    painting.takeOrder (contained kept) few
  have last : (cover, order) ∈ entries ++ more := by simp [split]
  refine ⟨order, taken, more, before, cover, took, Scene.insertPrimitive_of_takeOrder kept took,
    ⟨?_, fun kind => ?_, advances.opened⟩, short, fresh, split, covers⟩
  · exact advances.painting.store last primitive
  · rw [Scene.store_vector]
    exact (advances.grows kind).trans (List.prefix_append _ _)

/-- Opening a layer. -/
theorem Painting.pushLayer {scene : Scene K} {entries : List (Entry K)}
    (painting : Painting none scene entries) (bounds : Bounds K)
    (few : entries.length < 2 ^ 32 - 1) :
    ∃ order scene', scene.pushLayer bounds = some scene' ∧
      Advances none scene entries (some bounds) scene' [(bounds, order)] := by
  obtain ⟨order, tree', inserted, ranked⟩ := painting.ranked.insert few bounds
  have stack_eq : scene.layerStack = [] := painting.layer
  refine ⟨order, _, by simp [Scene.pushLayer, inserted]; rfl, ⟨ranked, ?_, ?_⟩, ?_, by simp⟩
  · exact ⟨entries, order, rfl, by simp [Scene.logOperation, stack_eq]⟩
  · intro kind primitive member
    have earlier := painting.atMost kind primitive (by cases kind <;> exact member)
    simp only [List.length_append, List.length_singleton]
    omega
  · intro kind
    cases kind <;> exact List.prefix_rfl

/-- Closing the layer. -/
theorem Painting.popLayer {bounds : Bounds K} {scene : Scene K} {entries : List (Entry K)}
    (painting : Painting (some bounds) scene entries) :
    Advances (some bounds) scene entries none scene.popLayer [] := by
  obtain ⟨before, order, -, stack_eq⟩ := painting.layer
  refine ⟨⟨?_, ?_, ?_⟩, fun kind => ?_, by simp⟩
  · rw [List.append_nil]
    exact painting.ranked
  · simp [Scene.popLayer, Scene.logOperation, stack_eq]
  · intro kind primitive member
    rw [List.append_nil]
    exact painting.atMost kind primitive (by cases kind <;> exact member)
  · cases kind <;> exact List.prefix_rfl

/-- One call under the discipline. -/
theorem Painting.step {current next : Option (Bounds K)} {scene : Scene K}
    {entries : List (Entry K)} (painting : Painting current scene entries) {call : SceneCall K}
    (stepped : layerStep current call = some next)
    (few : entries.length + [call].countP takesOrder < 2 ^ 32) :
    ∃ scene' more, call.apply scene = some scene' ∧
      Advances current scene entries next scene' more ∧
      more.length ≤ [call].countP takesOrder := by
  cases call with
  | insertPrimitive primitive =>
      have few : entries.length < 2 ^ 32 - 1 := by
        simp [takesOrder] at few
        omega
      cases kept : (Scene.clippedBounds primitive).isEmpty with
      | true =>
          obtain ⟨rfl, -⟩ := layerStep_insertPrimitive stepped
          refine ⟨scene, [], Scene.insertPrimitive_of_isEmpty kept,
            ⟨by simpa using painting, fun kind => List.prefix_rfl, ?_⟩, by simp⟩
          rintro isOpen rfl
          simp at isOpen
      | false =>
          obtain ⟨order, taken, more, -, -, -, inserted, advances, short, -⟩ :=
            painting.insertPrimitive stepped kept few
          exact ⟨_, more, inserted, advances, by simpa [takesOrder] using short⟩
  | pushLayer bounds =>
      have few : entries.length < 2 ^ 32 - 1 := by
        simp [takesOrder] at few
        omega
      cases current with
      | none =>
          obtain rfl := Option.some.inj stepped
          obtain ⟨order, scene', pushed, advances⟩ := painting.pushLayer bounds few
          exact ⟨scene', _, pushed, advances, by simp [takesOrder]⟩
      | some layer => exact absurd stepped (by simp [layerStep])
  | popLayer =>
      cases current with
      | none => exact absurd stepped (by simp [layerStep])
      | some layer =>
          obtain rfl := Option.some.inj stepped
          exact ⟨scene.popLayer, [], rfl, painting.popLayer, by simp⟩
  | replay _ _ _ => exact absurd stepped (by cases current <;> simp [layerStep])
  | replayVectorTransform _ _ _ => exact absurd stepped (by cases current <;> simp [layerStep])
  | replayCachedText _ _ _ _ => exact absurd stepped (by cases current <;> simp [layerStep])

/-- A run of calls under the discipline. -/
theorem Painting.run {current next : Option (Bounds K)} {scene : Scene K}
    {entries : List (Entry K)} (painting : Painting current scene entries)
    {calls : List (SceneCall K)} (stepped : calls.foldlM layerStep current = some next)
    (few : entries.length + calls.countP takesOrder < 2 ^ 32) :
    ∃ scene' more, calls.foldlM apply scene = some scene' ∧
      Advances current scene entries next scene' more ∧
      more.length ≤ calls.countP takesOrder := by
  induction calls generalizing current scene entries with
  | nil =>
      obtain rfl := Option.some.inj stepped
      refine ⟨scene, [], rfl, ⟨by simpa using painting, fun kind => List.prefix_rfl, ?_⟩, by simp⟩
      rintro isOpen rfl
      simp at isOpen
  | cons call calls ih =>
      obtain ⟨middle, first, rest⟩ := Option.bind_eq_some_iff.mp stepped
      have count_eq : (call :: calls).countP takesOrder =
          [call].countP takesOrder + calls.countP takesOrder := by
        rw [← List.countP_append, List.singleton_append]
      rw [count_eq] at few ⊢
      obtain ⟨scene', more, applied, advances, short⟩ := painting.step first (by omega)
      obtain ⟨final, evenMore, ran, further, shortRest⟩ := ih advances.painting rest (by
        rw [List.length_append]
        omega)
      refine ⟨final, more ++ evenMore, ?_, advances.trans further, ?_⟩
      · simp [applied, ran]
      · rw [List.length_append]
        omega

/-! ## The order of emission -/

theorem Painting.visible {current : Option (Bounds K)} {scene : Scene K}
    {entries : List (Entry K)} (painting : Painting current scene entries)
    (few : entries.length < 2 ^ 32 - 1) : BatchIterator.Visible scene.vector := by
  intro kind _ primitive member sentinel
  have atMost := painting.atMost kind primitive member
  rw [sentinel] at atMost
  have max_eq : DrawOrder.MAX.toNat = 2 ^ 32 - 1 := rfl
  omega

omit [Field K] [LinearOrder K] in
/-- In a covered scene the smaller order is emitted first. -/
theorem precedes_of_order_lt {scene : Scene K} {batches : List (PrimitiveBatch K)}
    (covered : scene.CoveredBy batches) {first second : Primitive K}
    (firstMem : first ∈ scene.vector first.kind) (secondMem : second ∈ scene.vector second.kind)
    (below : first.order < second.order) :
    Precedes (batches.flatMap PrimitiveBatch.primitives) first second := by
  have emitted : ∀ {primitive : Primitive K}, primitive ∈ scene.vector primitive.kind →
      primitive ∈ batches.flatMap PrimitiveBatch.primitives := by
    intro primitive member
    rw [← covered.slices] at member
    obtain ⟨batch, batchMem, held⟩ := List.mem_flatMap.mp member
    exact List.mem_flatMap.mpr ⟨batch, (List.mem_filter.mp batchMem).1, held⟩
  refine ⟨emitted firstMem, emitted secondMem, ?_⟩
  intro early late atEarly atLate
  by_contra notBefore
  have keyLt : first.batchKey < second.batchKey := Prod.Lex.lt_iff.mpr (Or.inl below)
  rcases Nat.lt_or_eq_of_le (not_lt.mp notBefore) with reversed | same
  · obtain ⟨lateIn, rfl⟩ := List.getElem?_eq_some_iff.mp atLate
    obtain ⟨earlyIn, rfl⟩ := List.getElem?_eq_some_iff.mp atEarly
    have sorted := List.pairwise_iff_getElem.mp covered.ordered late early lateIn earlyIn reversed
    exact absurd sorted (not_le.mpr keyLt)
  · rw [same, atEarly] at atLate
    obtain rfl := Option.some.inj atLate
    exact absurd keyLt (lt_irrefl _)

/-- What an insertion stores, in terms of the calls before it. -/
theorem storedBy_eq {calls before : List (SceneCall K)} {index : Nat}
    (taken_eq : calls.take index = before) {primitive : Primitive K}
    (here : calls[index]? = some (.insertPrimitive primitive))
    (kept : (Scene.clippedBounds primitive).isEmpty = false) {scene taken : Scene K}
    (ran : SceneCall.run before = some scene) {order : DrawOrder}
    (took : scene.takeOrder (Scene.clippedBounds primitive) = some (order, taken)) :
    storedBy calls index = some (primitive.withOrder order taken.paths.length) := by
  simp [storedBy, taken_eq, ran, here, kept, took]

theorem openLayer_take {calls : List (SceneCall K)} {final : Option (Bounds K)}
    (opened : openLayer calls = some final) (index : Nat) :
    ∃ current, openLayer (calls.take index) = some current := by
  rw [openLayer, ← List.take_append_drop index calls, List.foldlM_append] at opened
  obtain ⟨current, here, -⟩ := Option.bind_eq_some_iff.mp opened
  exact ⟨current, here⟩

/-- The state of a painting after the first `index` calls. -/
structure PaintedAt (calls : List (SceneCall K)) (index : Nat) (current : Option (Bounds K))
    (scene : Scene K) (entries : List (Entry K)) : Prop where
  opened : openLayer (calls.take index) = some current
  ran : SceneCall.run (calls.take index) = some scene
  painting : Painting current scene entries
  short : entries.length ≤ (calls.take index).countP takesOrder

theorem paintedAt_zero (calls : List (SceneCall K)) :
    PaintedAt calls 0 none Scene.empty [] :=
  ⟨rfl, rfl, painting_empty, Nat.zero_le _⟩

omit [Field K] [LinearOrder K] in
theorem countP_take_le (calls : List (SceneCall K)) (index : Nat) :
    (calls.take index).countP takesOrder ≤ calls.countP takesOrder :=
  (List.take_sublist index calls).countP_le

theorem PaintedAt.length_lt {calls : List (SceneCall K)} {index : Nat}
    {current : Option (Bounds K)} {scene : Scene K} {entries : List (Entry K)}
    (painted : PaintedAt calls index current scene entries)
    (few : calls.countP takesOrder < 2 ^ 32 - 1) : entries.length < 2 ^ 32 - 1 :=
  lt_of_le_of_lt (painted.short.trans (countP_take_le calls index)) few

/-- Painting on from one position to a later one. -/
theorem PaintedAt.forward {calls : List (SceneCall K)} {early late : Nat}
    {current : Option (Bounds K)} {scene : Scene K} {entries : List (Entry K)}
    (painted : PaintedAt calls early current scene entries) (bracketed : Bracketed calls)
    (few : calls.countP takesOrder < 2 ^ 32 - 1) (order : early ≤ late) :
    ∃ next scene' more, PaintedAt calls late next scene' (entries ++ more) ∧
      Advances current scene entries next scene' more := by
  obtain ⟨next, lateOpen⟩ := openLayer_take bracketed late
  have split := (List.take_append_drop early (calls.take late)).symm
  rw [List.take_take, min_eq_left order] at split
  have count_eq := congrArg (List.countP takesOrder) split
  rw [List.countP_append] at count_eq
  have atMost := countP_take_le calls late
  have short := painted.short
  have stepped : ((calls.take late).drop early).foldlM layerStep current = some next := by
    have whole := lateOpen
    rw [split, openLayer, List.foldlM_append] at whole
    obtain ⟨middle, first, rest⟩ := Option.bind_eq_some_iff.mp whole
    rw [show middle = current from Option.some.inj (first.symm.trans painted.opened)] at rest
    exact rest
  obtain ⟨scene', more, ran, advances, shortMore⟩ := painted.painting.run stepped (by omega)
  refine ⟨next, scene', more, ⟨lateOpen, ?_, advances.painting, ?_⟩, advances⟩
  · rw [split, SceneCall.run, List.foldlM_append]
    exact Option.bind_eq_some_iff.mpr ⟨scene, painted.ran, ran⟩
  · rw [List.length_append]
    omega

/-- Painting a kept primitive at a position. -/
theorem PaintedAt.insertPrimitive {calls : List (SceneCall K)} {index : Nat}
    {current : Option (Bounds K)} {scene : Scene K} {entries : List (Entry K)}
    (painted : PaintedAt calls index current scene entries) (bracketed : Bracketed calls)
    (few : calls.countP takesOrder < 2 ^ 32 - 1) {primitive : Primitive K}
    (here : calls[index]? = some (.insertPrimitive primitive))
    (kept : (Scene.clippedBounds primitive).isEmpty = false) :
    ∃ stored scene' more before cover,
      storedBy calls index = some stored ∧ stored ∈ scene'.vector stored.kind ∧
      PaintedAt calls (index + 1) current scene' (entries ++ more) ∧
      (∀ kind, scene.vector kind ⊆ scene'.vector kind) ∧ (current = none → more ≠ []) ∧
      entries ++ more = before ++ [(cover, stored.order)] ∧
      cover.Covers (Scene.clippedBounds primitive) := by
  have take_succ : calls.take (index + 1) = calls.take index ++ [.insertPrimitive primitive] := by
    rw [List.take_add_one, here, Option.toList_some]
  obtain ⟨next, opened⟩ := openLayer_take bracketed (index + 1)
  have stepped : layerStep current (.insertPrimitive primitive) = some next := by
    have whole := opened
    rw [take_succ, openLayer, List.foldlM_append] at whole
    obtain ⟨middle, first, rest⟩ := Option.bind_eq_some_iff.mp whole
    rw [show middle = current from Option.some.inj (first.symm.trans painted.opened)] at rest
    simpa using rest
  obtain ⟨order, taken, more, before, cover, took, inserted, advances, shortMore, fresh, split,
    covers⟩ := painted.painting.insertPrimitive stepped kept (painted.length_lt few)
  obtain ⟨rfl, -⟩ := layerStep_insertPrimitive stepped
  have short := painted.short
  refine ⟨primitive.withOrder order taken.paths.length, taken.store order primitive, more, before,
    cover, storedBy_eq rfl here kept painted.ran took, ?_,
    ⟨opened, ?_, advances.painting, ?_⟩, fun kind => (advances.grows kind).subset, fresh, ?_,
    covers⟩
  · rw [Primitive.withOrder_kind, Scene.store_vector]
    simp
  · rw [take_succ, SceneCall.run, List.foldlM_append]
    exact Option.bind_eq_some_iff.mpr ⟨scene, painted.ran, by simpa [apply] using inserted⟩
  · rw [take_succ, List.countP_append, List.length_append]
    simp only [List.countP_singleton, takesOrder, if_true]
    omega
  · rw [Primitive.withOrder_order]
    exact split

private theorem prefix_of_append_eq {α : Type} {first more before : List α} {last : α}
    (nonempty : more ≠ []) (equal : first ++ more = before ++ [last]) : first <+: before := by
  obtain ⟨front, final, rfl⟩ := List.eq_nil_or_concat more |>.resolve_left nonempty
  rw [List.concat_eq_append, ← List.append_assoc] at equal
  obtain ⟨rfl, -⟩ := List.append_inj' equal rfl
  exact List.prefix_append _ _

/-- Painter's order, for every bracketed sequence of calls that cannot exhaust
the draw orders. -/
theorem paintersOrder_of_bracketed (calls : List (SceneCall K)) (bracketed : Bracketed calls)
    (few : calls.countP takesOrder < 2 ^ 32 - 1) : PaintersOrder calls := by
  intro early late first second before firstHere secondHere firstKept secondKept overlap apart
  -- a position between the two at which no layer is open, the first one stored
  obtain ⟨gap, gapFrom, gapTo, noLayer⟩ :
      ∃ gap, early ≤ gap ∧ gap ≤ late ∧ openLayer (calls.take gap) = some none := by
    simp only [SameLayer, not_forall] at apart
    obtain ⟨gap, gapFrom, gapTo, notOpen⟩ := apart
    obtain ⟨current, opened⟩ := openLayer_take bracketed gap
    cases current with
    | none => exact ⟨gap, gapFrom, gapTo, opened⟩
    | some layer => exact absurd ⟨layer, opened⟩ notOpen
  obtain ⟨current, scene₁, entries₁, painted₁, -⟩ :=
    (paintedAt_zero calls).forward bracketed few (Nat.zero_le early)
  rw [List.nil_append] at painted₁
  obtain ⟨firstStored, scene₂, more₂, before₂, firstCover, firstBy, firstMem, painted₂, -, -,
    split₂, firstCovers⟩ := painted₁.insertPrimitive bracketed few firstHere firstKept
  have firstEntry : (firstCover, firstStored.order) ∈ entries₁ ++ more₂ := by simp [split₂]
  obtain ⟨clear, scene₃, more₃, painted₃, advances₃, reached, noLayer₃⟩ :
      ∃ position scene₃ more₃, PaintedAt calls position none scene₃ (entries₁ ++ more₂ ++ more₃) ∧
        (∀ kind, scene₂.vector kind <+: scene₃.vector kind) ∧ position ≤ late ∧
        early + 1 ≤ position := by
    rcases Nat.eq_or_lt_of_le gapFrom with rfl | later
    · have same : current = none := Option.some.inj (painted₁.opened.symm.trans noLayer)
      exact ⟨early + 1, scene₂, [], by simpa [same] using painted₂,
        fun kind => List.prefix_rfl, before, le_rfl⟩
    · obtain ⟨next, scene₃, more₃, painted₃, advances₃⟩ := painted₂.forward bracketed few later
      have same : next = none := Option.some.inj (painted₃.opened.symm.trans noLayer)
      exact ⟨gap, scene₃, more₃, same ▸ painted₃, advances₃.grows, gapTo, later⟩
  obtain ⟨current₄, scene₄, more₄, painted₄, advances₄⟩ := painted₃.forward bracketed few reached
  obtain ⟨secondStored, scene₅, more₅, before₅, secondCover, secondBy, secondMem, painted₅,
    grew₅, fresh, split₅, secondCovers⟩ := painted₄.insertPrimitive bracketed few secondHere secondKept
  have inRange : late + 1 ≤ calls.length := (List.getElem?_eq_some_iff.mp secondHere).1
  obtain ⟨_, scene, more₆, finished, advances₆⟩ := painted₅.forward bracketed few inRange
  -- the entry of the second primitive came after the gap, so after that of the first
  have below : firstStored.order < secondStored.order := by
    have anew : more₄ ++ more₅ ≠ [] := by
      cases current₄ with
      | none => simp [fresh rfl]
      | some layer => simp [advances₄.opened rfl rfl]
    have earlier : (firstCover, firstStored.order) ∈ before₅ := by
      rw [List.append_assoc] at split₅
      exact (prefix_of_append_eq anew split₅).subset (List.mem_append_left _ firstEntry)
    have rising := painted₅.painting.ranked.rising
    rw [split₅, List.pairwise_append] at rising
    refine rising.2.2 _ earlier _ (List.mem_singleton_self _) ?_
    refine firstCovers.intersects ?_
    rw [Bounds.intersects_comm]
    refine secondCovers.intersects ?_
    rwa [Bounds.intersects_comm]
  have few' := finished.length_lt few
  have ran := finished.ran
  rw [List.take_length] at ran
  refine ⟨scene, firstStored, secondStored, ran, firstBy, secondBy, ?_⟩
  refine precedes_of_order_lt
    ((Scene.finish_coveredBy_iff scene).mpr (finished.painting.visible few')) ?_ ?_ below
  · rw [Scene.finish_mem_vector]
    exact (advances₆.grows _).subset (grew₅ _ ((advances₄.grows _).subset
      ((advances₃ _).subset firstMem)))
  · rw [Scene.finish_mem_vector]
    exact (advances₆.grows _).subset secondMem

/-! ## Two quads, and one quad too often -/

/-- An opaque ten by ten quad. -/
def tenByTen (x y : ℚ) : Primitive ℚ :=
  .quad
    { order := 0
      bounds := ⟨⟨x, y⟩, ⟨10, 10⟩⟩
      contentMask := ⟨⟨⟨0, 0⟩, ⟨100, 100⟩⟩⟩
      cornerRadii := ⟨0, 0, 0, 0⟩
      borderWidths := ⟨0, 0, 0, 0⟩
      transformation := .unit }

example : (Scene.clippedBounds (tenByTen 0 0)).isEmpty = false := by
  decide +kernel

theorem paintersOrder_of_bracketed_two :
    ∃ scene firstStored secondStored,
      SceneCall.run [.insertPrimitive (tenByTen 0 0), .insertPrimitive (tenByTen 5 5)] =
        some scene ∧
      storedBy [.insertPrimitive (tenByTen 0 0), .insertPrimitive (tenByTen 5 5)] 0 =
        some firstStored ∧
      storedBy [.insertPrimitive (tenByTen 0 0), .insertPrimitive (tenByTen 5 5)] 1 =
        some secondStored ∧
      Precedes (scene.finish.batches.flatMap PrimitiveBatch.primitives)
        firstStored secondStored := by
  refine paintersOrder_of_bracketed
    [.insertPrimitive (tenByTen 0 0), .insertPrimitive (tenByTen 5 5)] ?_ (by decide)
    0 1 _ _ (by decide) rfl rfl (by decide +kernel) (by decide +kernel) (by decide +kernel) ?_
  · simp [Bracketed, openLayer, layerStep]
  · intro same
    obtain ⟨layer, opened⟩ := same 0 le_rfl (by decide)
    simp [openLayer] at opened

/-- Painting one rectangle over and over hands out one order after the other. -/
theorem run_replicate {primitive : Primitive K}
    (kept : (Scene.clippedBounds primitive).isEmpty = false)
    (overlap : (Scene.clippedBounds primitive).intersects (Scene.clippedBounds primitive) = true)
    (count : Nat) (few : count < 2 ^ 32) :
    ∃ scene entries,
      SceneCall.run (List.replicate count (.insertPrimitive primitive)) = some scene ∧
      scene.layerStack = [] ∧ Represents scene.primitiveBounds entries ∧
      (overlapMax (Scene.clippedBounds primitive) entries).toNat = count := by
  induction count with
  | zero => exact ⟨Scene.empty, [], rfl, rfl, represents_empty, rfl⟩
  | succ count ih =>
      obtain ⟨scene, entries, ran, stack_eq, represents, order_eq⟩ := ih (by omega)
      obtain ⟨tree', inserted, represents'⟩ :=
        insert_spec represents (Scene.clippedBounds primitive)
      have took : scene.takeOrder (Scene.clippedBounds primitive) =
          some (overlapMax (Scene.clippedBounds primitive) entries + 1,
            { scene with primitiveBounds := tree' }) := by
        simp [Scene.takeOrder, stack_eq, inserted]
      have notLast : (overlapMax (Scene.clippedBounds primitive) entries).toNat < 2 ^ 32 - 1 := by
        omega
      have next_eq := Library.toNat_succ_of_lt notLast
      refine ⟨({ scene with primitiveBounds := tree' } : Scene K).store
          (overlapMax (Scene.clippedBounds primitive) entries + 1) primitive, _, ?_, ?_,
        by rw [Scene.store_primitiveBounds]; exact represents', ?_⟩
      · rw [List.replicate_succ', SceneCall.run, List.foldlM_append]
        refine Option.bind_eq_some_iff.mpr ⟨scene, ran, ?_⟩
        simpa [apply] using Scene.insertPrimitive_of_takeOrder kept took
      · rw [Scene.store_layerStack]
        exact stack_eq
      · rw [overlapMax_append, UInt32.toNat_max]
        simp only [overlapMax, overlap, if_true, Library.max_zero_word]
        rw [next_eq, order_eq]
        exact max_eq_right (Nat.le_succ count)

theorem bracketed_replicate (primitive : Primitive K) (count : Nat) :
    Bracketed (List.replicate count (.insertPrimitive primitive)) := by
  induction count with
  | zero => rfl
  | succ count ih =>
      rw [List.replicate_succ]
      simpa [Bracketed, openLayer, layerStep] using ih

/-- The order runs into the sentinel when as many quads lie on each other. -/
theorem storedBy_replicate {count : Nat} (last : count + 1 = 2 ^ 32 - 1)
    {stored : Primitive ℚ}
    (storedHere : storedBy (List.replicate (count + 1) (.insertPrimitive (tenByTen 0 0))) count =
      some stored) : stored.order = DrawOrder.MAX ∧ stored.kind = .quad := by
  have kept : (Scene.clippedBounds (tenByTen 0 0)).isEmpty = false := by decide +kernel
  have overlap : (Scene.clippedBounds (tenByTen 0 0)).intersects
      (Scene.clippedBounds (tenByTen 0 0)) = true := by decide +kernel
  obtain ⟨scene, entries, ran, stack_eq, represents, order_eq⟩ :=
    run_replicate kept overlap count (by omega)
  obtain ⟨tree', inserted, -⟩ := insert_spec represents (Scene.clippedBounds (tenByTen 0 0))
  have took : scene.takeOrder (Scene.clippedBounds (tenByTen 0 0)) =
      some (overlapMax (Scene.clippedBounds (tenByTen 0 0)) entries + 1,
        { scene with primitiveBounds := tree' }) := by
    simp [Scene.takeOrder, stack_eq, inserted]
  have before : (List.replicate (count + 1) (SceneCall.insertPrimitive (tenByTen 0 0))).take count =
      List.replicate count (.insertPrimitive (tenByTen 0 0)) := by
    rw [List.take_replicate, Nat.min_eq_left (Nat.le_succ count)]
  have spec := storedBy_eq before (by simp) kept ran took
  obtain rfl := Option.some.inj (storedHere.symm.trans spec)
  refine ⟨?_, rfl⟩
  rw [Primitive.withOrder_order, ← UInt32.toNat_inj, Library.toNat_succ_of_lt (by omega), order_eq,
    last]
  rfl

/-- Without a bound on the number of calls painter's order fails: the last of
`2 ^ 32 - 1` equal quads is never emitted. -/
theorem not_forall_paintersOrder :
    ¬ ∀ calls : List (SceneCall ℚ), Bracketed calls → PaintersOrder calls := by
  intro ordered
  obtain ⟨count, last⟩ : ∃ count, count + 1 = 2 ^ 32 - 1 := ⟨2 ^ 32 - 2, by norm_num⟩
  have kept : (Scene.clippedBounds (tenByTen 0 0)).isEmpty = false := by decide +kernel
  have overlap : (Scene.clippedBounds (tenByTen 0 0)).intersects
      (Scene.clippedBounds (tenByTen 0 0)) = true := by decide +kernel
  have apart : ¬ SameLayer
      (List.replicate (count + 1) (.insertPrimitive (tenByTen 0 0))) 0 count := by
    intro same
    obtain ⟨layer, opened⟩ := same 0 le_rfl (Nat.zero_le count)
    simp [openLayer] at opened
  obtain ⟨scene, -, stored, -, -, storedHere, -, emitted, -⟩ :=
    ordered _ (bracketed_replicate (tenByTen 0 0) (count + 1)) 0 count (tenByTen 0 0)
      (tenByTen 0 0) (by omega) (by simp) (by simp) kept kept overlap apart
  obtain ⟨batch, batchMem, held⟩ := List.mem_flatMap.mp emitted
  obtain ⟨kind_eq, -, notMax⟩ := Scene.mem_finish_batches batchMem stored held
  obtain ⟨order_eq, isQuad⟩ := storedBy_replicate last storedHere
  exact notMax (by rw [← kind_eq, isQuad]; decide) order_eq

example : (tenByTen 0 0).bounds.size.width = 10 := by
  decide +kernel

end SceneCall

end Gpui
