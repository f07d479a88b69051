import Gpui.Library.Logged
import Gpui.Style.Length
import Gpui.Window.ElementFrames

/-!
# Images

An image with several frames is animated by its element: the index of the frame that is
shown is element state, and is moved on when the frame has been shown for its delay.  Layout
and paint use the index from before.

The index is not reset when the source of the element yields another image.  Asking an image
for a frame it does not have panics.
-/

namespace Gpui

open Library

/-- A frame of an image: its delay in nanoseconds and its dimensions. -/
structure ImageFrame where
  delay : Nat
  width : Nat
  height : Nat
deriving DecidableEq, Repr

structure RenderImage (K : Type) where
  scaleFactor : K
  data : List ImageFrame
  data_ne_nil : data ≠ []

/-- The index of a frame that is asked for, and the image. -/
structure FrameUse (K : Type) where
  frameIndex : Nat
  image : RenderImage K

namespace RenderImage

variable {K : Type}

def frameCount (self : RenderImage K) : Nat :=
  self.data.length

/-- `self.data[frame_index]`. -/
def frame (self : RenderImage K) (frameIndex : Nat) : Logged (FrameUse K) ImageFrame :=
  .attempt ⟨frameIndex, self⟩ self.data[frameIndex]?

def delay (self : RenderImage K) (frameIndex : Nat) : Logged (FrameUse K) Nat :=
  (self.frame frameIndex).bind fun frame => .pure frame.delay

def size (self : RenderImage K) (frameIndex : Nat) : Logged (FrameUse K) (Size Nat) :=
  (self.frame frameIndex).bind fun frame => .pure ⟨frame.width, frame.height⟩

def renderSize [Field K] (self : RenderImage K) (frameIndex : Nat) :
    Logged (FrameUse K) (Size K) :=
  (self.size frameIndex).bind fun size =>
    .pure ⟨(size.width : K) / self.scaleFactor, (size.height : K) / self.scaleFactor⟩

end RenderImage

/-- What `use_data` yields. -/
inductive ImageData (K : Type) where
  | loading
  | failed
  | loaded (image : RenderImage K)

structure ImgState where
  frameIndex : Nat
  lastFrameTime : Option Nat
  startedLoading : Option Nat
deriving DecidableEq, Repr

def ImgState.new : ImgState where
  frameIndex := 0
  lastFrameTime := none
  startedLoading := none

/-- The element that is shown in place of an image. -/
inductive ImgReplacement where
  | fallback
  | loading
deriving DecidableEq, Repr

/-- The sizes of the element's style. -/
structure ImgStyle (K : Type) where
  width : Length K
  height : Length K
  aspectRatio : Option K

/-- An element in a frame of the window, with the image its source yields to layout and to
paint, and the time. -/
structure ImgElement (K : Type) where
  data : ImageData K
  paintData : ImageData K
  now : Nat
  style : ImgStyle K
  remSize : K
  hasFallback : Bool
  hasLoading : Bool

structure ImgLayout (K : Type) where
  frameIndex : Nat
  style : ImgStyle K
  replacement : Option ImgReplacement
  requestsAnimationFrame : Bool

namespace ImgElement

variable {K : Type}

/-- `LOADING_DELAY`. -/
def loadingDelay : Nat := 200 * 1000000

/-- Move the frame of an animation on when it has been shown for its delay. -/
def advance (self : ImgElement K) (image : RenderImage K) (state : ImgState) :
    Logged (FrameUse K) ImgState :=
  if image.frameCount > 1 then
    match state.lastFrameTime with
    | some lastFrameTime =>
        (image.delay state.frameIndex).bind fun frameDuration =>
          let elapsed := self.now - lastFrameTime
          if elapsed ≥ frameDuration then
            .pure { state with
              frameIndex := (state.frameIndex + 1) % image.frameCount
              lastFrameTime := some (self.now - (elapsed - frameDuration)) }
          else .pure state
    | none => .pure { state with lastFrameTime := some self.now }
  else .pure state

variable [Field K]

/-- The style with the sizes of an image where it has none. -/
def fitStyle (self : ImgElement K) (imageSize : Size K) : ImgStyle K :=
  let width :=
    match self.style.width with
    | .auto =>
        match self.style.height with
        | .definite (.absolute length) =>
            .definite (.absolute (.pixels
              (imageSize.width * length.toPixels self.remSize / imageSize.height)))
        | _ => .definite (.absolute (.pixels imageSize.width))
    | width => width
  let height :=
    match self.style.height with
    | .auto =>
        match width with
        | .definite (.absolute length) =>
            .definite (.absolute (.pixels
              (imageSize.height * length.toPixels self.remSize / imageSize.width)))
        | _ => .definite (.absolute (.pixels imageSize.height))
    | height => height
  { width, height, aspectRatio := some (imageSize.width / imageSize.height) }

/-- `request_layout`, for an element with an id. -/
def requestLayout (self : ImgElement K) (state : Option ImgState) :
    Logged (FrameUse K) (ImgLayout K × ImgState) :=
  let state := state.getD .new
  let frameIndex := state.frameIndex
  match self.data with
  | .loaded image =>
      (self.advance image state).bind fun state =>
        (image.renderSize frameIndex).bind fun imageSize =>
          .pure
            ({ frameIndex, style := self.fitStyle imageSize, replacement := none
               requestsAnimationFrame := image.frameCount > 1 },
              { state with startedLoading := none })
  | .failed =>
      .pure
        ({ frameIndex, style := self.style
           replacement := if self.hasFallback then some .fallback else none
           requestsAnimationFrame := false },
          { state with startedLoading := none })
  | .loading =>
      let (replacement, startedLoading) :=
        match state.startedLoading with
        | some startedLoading =>
            (if self.now - startedLoading > loadingDelay ∧ self.hasLoading then
              some ImgReplacement.loading
            else none, startedLoading)
        | none => (none, self.now)
      .pure
        ({ frameIndex, style := self.style, replacement, requestsAnimationFrame := false },
          { state with startedLoading := some startedLoading })

omit [Field K] in
/-- `paint`, which asks for the size of the image and then paints it. -/
def paint (self : ImgElement K) (layout : ImgLayout K) : Logged (FrameUse K) Unit :=
  match self.paintData with
  | .loaded image =>
      (image.size layout.frameIndex).bind fun _ =>
        (image.frame layout.frameIndex).bind fun _ => .pure ()
  | _ => .pure ()

/-- One frame of the window. -/
def draw (state : Option ImgState) (self : ImgElement K) :
    Logged (FrameUse K) (Option ImgState) :=
  (self.requestLayout state).bind fun (layout, state) =>
    (self.paint layout).bind fun _ => .pure (some state)

/-- The frames of the window from the first that has the element. -/
def run (frames : List (ImgElement K)) : Logged (FrameUse K) (Option ImgState) :=
  Logged.iterate draw none frames

end ImgElement

/-! ## Frames that an image has -/

variable {K : Type}

/-- The image has the frame that is asked for. -/
def FrameUse.Exists (use : FrameUse K) : Prop :=
  use.frameIndex < use.image.frameCount

namespace RenderImage

theorem frame_exists {image : RenderImage K} {frameIndex : Nat} {frame : ImageFrame}
    (found : (image.frame frameIndex).result = some frame) : frameIndex < image.frameCount := by
  rcases List.getElem?_eq_some_iff.mp found with ⟨within, -⟩
  exact within

theorem frame_log (image : RenderImage K) (frameIndex : Nat) :
    (∀ use ∈ (image.frame frameIndex).log, use.Exists) ↔ frameIndex < image.frameCount := by
  constructor
  · intro exist
    exact exist _ (List.mem_singleton_self _)
  · intro within use member
    rcases List.mem_singleton.mp member with rfl
    exact within

theorem forall_pure_log {α : Type} (value : α) :
    ∀ use ∈ (Logged.pure value : Logged (FrameUse K) α).log, use.Exists := by
  intro use member
  cases member

theorem delay_log (image : RenderImage K) (frameIndex : Nat) :
    (∀ use ∈ (image.delay frameIndex).log, use.Exists) ↔ frameIndex < image.frameCount := by
  rw [delay, Logged.forall_log_bind, frame_log]
  exact and_iff_left fun _ _ => forall_pure_log _

theorem size_log (image : RenderImage K) (frameIndex : Nat) :
    (∀ use ∈ (image.size frameIndex).log, use.Exists) ↔ frameIndex < image.frameCount := by
  rw [size, Logged.forall_log_bind, frame_log]
  exact and_iff_left fun _ _ => forall_pure_log _

theorem size_exists {image : RenderImage K} {frameIndex : Nat} {size : Size Nat}
    (found : (image.size frameIndex).result = some size) : frameIndex < image.frameCount := by
  rcases Logged.bind_result_eq_some found with ⟨frame, isFrame, -⟩
  exact frame_exists isFrame

end RenderImage

namespace ImgElement

/-- Moving on asks for the frame that was shown, and keeps to the frames of the image. -/
theorem advance_log (self : ImgElement K) {image : RenderImage K} {state : ImgState}
    (within : state.frameIndex < image.frameCount) :
    ∀ use ∈ (self.advance image state).log, use.Exists := by
  simp only [advance]
  split
  · split
    · rw [Logged.forall_log_bind, RenderImage.delay_log]
      refine ⟨within, ?_⟩
      intro frameDuration _
      split
      · exact RenderImage.forall_pure_log _
      · exact RenderImage.forall_pure_log _
    · exact RenderImage.forall_pure_log _
  · exact RenderImage.forall_pure_log _

theorem advance_frameIndex {self : ImgElement K} {image : RenderImage K}
    {state next : ImgState} (within : state.frameIndex < image.frameCount)
    (advanced : (self.advance image state).result = some next) :
    next.frameIndex < image.frameCount := by
  simp only [advance] at advanced
  split at advanced
  · split at advanced
    · rcases Logged.bind_result_eq_some advanced with ⟨frameDuration, -, moved⟩
      split at moved
      · rcases Option.some.inj moved with rfl
        exact Nat.mod_lt _ (Nat.lt_of_le_of_lt (Nat.zero_le _) within)
      · rcases Option.some.inj moved with rfl
        exact within
    · rcases Option.some.inj advanced with rfl
      exact within
  · rcases Option.some.inj advanced with rfl
    exact within

variable [Field K]

theorem renderSize_log (image : RenderImage K) (frameIndex : Nat) :
    (∀ use ∈ (image.renderSize frameIndex).log, use.Exists) ↔
      frameIndex < image.frameCount := by
  rw [RenderImage.renderSize, Logged.forall_log_bind, RenderImage.size_log]
  exact and_iff_left fun _ _ => RenderImage.forall_pure_log _

omit [Field K] in
/-- Moving on fails only where it asks for a frame that is not there. -/
theorem exists_advance {self : ImgElement K} {image : RenderImage K} {state : ImgState}
    (exist : ∀ use ∈ (self.advance image state).log, use.Exists) :
    ∃ next, (self.advance image state).result = some next := by
  simp only [advance] at exist ⊢
  split
  next several =>
    rw [if_pos several] at exist
    split
    next lastFrameTime isLast =>
      rw [isLast] at exist
      have within := (image.delay_log state.frameIndex).mp (Logged.forall_log_bind.mp exist).1
      have frame : image.data[state.frameIndex]? = some image.data[state.frameIndex] :=
        List.getElem?_eq_getElem within
      simp only [RenderImage.delay, RenderImage.frame, Logged.attempt, Logged.bind, frame,
        Logged.pure]
      split
      · exact ⟨_, rfl⟩
      · exact ⟨_, rfl⟩
    next => exact ⟨_, rfl⟩
  next => exact ⟨_, rfl⟩

/-- What `request_layout` does with an image. -/
theorem requestLayout_loaded {self : ImgElement K} {image : RenderImage K}
    (isLoaded : self.data = .loaded image) (state : Option ImgState) :
    self.requestLayout state =
      (self.advance image (state.getD .new)).bind fun next =>
        (image.renderSize (state.getD .new).frameIndex).bind fun imageSize =>
          .pure
            ({ frameIndex := (state.getD .new).frameIndex, style := self.fitStyle imageSize
               replacement := none, requestsAnimationFrame := image.frameCount > 1 },
              { next with startedLoading := none }) := by
  simp only [requestLayout, isLoaded]

/-- Without an image nothing is asked for, and the index stays. -/
theorem requestLayout_other {self : ImgElement K}
    (notLoaded : ∀ image, self.data ≠ .loaded image) (state : Option ImgState) :
    ∃ layout next, self.requestLayout state = .pure (layout, next) ∧
      layout.frameIndex = (state.getD .new).frameIndex ∧
      next.frameIndex = (state.getD .new).frameIndex := by
  cases isData : self.data with
  | loaded image => exact absurd isData (notLoaded image)
  | failed =>
      simp only [requestLayout, isData]
      exact ⟨_, _, rfl, rfl, rfl⟩
  | loading =>
      simp only [requestLayout, isData]
      exact ⟨_, _, rfl, rfl, rfl⟩

omit [Field K] in
theorem paint_log (self : ImgElement K) (layout : ImgLayout K) :
    (∀ use ∈ (self.paint layout).log, use.Exists) ↔
      ∀ image, self.paintData = .loaded image → layout.frameIndex < image.frameCount := by
  cases isData : self.paintData with
  | loaded image =>
      simp only [paint, isData]
      rw [Logged.forall_log_bind, RenderImage.size_log]
      constructor
      · rintro ⟨within, -⟩ image ⟨⟩
        exact within
      · intro within
        refine ⟨within image rfl, ?_⟩
        intro _ _
        rw [Logged.forall_log_bind, RenderImage.frame_log]
        exact ⟨within image rfl, fun _ _ => RenderImage.forall_pure_log _⟩
  | failed =>
      simp only [paint, isData]
      exact iff_of_true (RenderImage.forall_pure_log _) (by rintro image ⟨⟩)
  | loading =>
      simp only [paint, isData]
      exact iff_of_true (RenderImage.forall_pure_log _) (by rintro image ⟨⟩)

/-- Layout asks for the frame whose index was kept. -/
theorem requestLayout_log (self : ImgElement K) (state : Option ImgState) :
    (∀ use ∈ (self.requestLayout state).log, use.Exists) ↔
      ∀ image, self.data = .loaded image →
        (state.getD .new).frameIndex < image.frameCount := by
  constructor
  · intro exist image isLoaded
    rw [requestLayout_loaded isLoaded, Logged.forall_log_bind] at exist
    rcases exists_advance exist.1 with ⟨next, advanced⟩
    have sized := (Logged.forall_log_bind.mp (exist.2 next advanced)).1
    exact (renderSize_log image _).mp sized
  · intro within
    by_cases isLoaded : ∃ image, self.data = .loaded image
    · rcases isLoaded with ⟨image, isLoaded⟩
      rw [requestLayout_loaded isLoaded, Logged.forall_log_bind]
      refine ⟨advance_log self (within image isLoaded), ?_⟩
      intro next _
      rw [Logged.forall_log_bind, renderSize_log]
      exact ⟨within image isLoaded, fun _ _ => RenderImage.forall_pure_log _⟩
    · have notLoaded : ∀ image, self.data ≠ .loaded image :=
        fun image isData => isLoaded ⟨image, isData⟩
      rcases requestLayout_other notLoaded state with ⟨layout, next, isPure, -, -⟩
      rw [isPure]
      exact RenderImage.forall_pure_log _

/-- Paint gets the index that was kept. -/
theorem requestLayout_frameIndex {self : ImgElement K} {state : Option ImgState}
    {layout : ImgLayout K} {next : ImgState}
    (laidOut : (self.requestLayout state).result = some (layout, next)) :
    layout.frameIndex = (state.getD .new).frameIndex := by
  by_cases isLoaded : ∃ image, self.data = .loaded image
  · rcases isLoaded with ⟨image, isLoaded⟩
    rw [requestLayout_loaded isLoaded] at laidOut
    rcases Logged.bind_result_eq_some laidOut with ⟨advanced, -, sized⟩
    rcases Logged.bind_result_eq_some sized with ⟨imageSize, -, isLayout⟩
    rcases Prod.mk.inj (Option.some.inj isLayout) with ⟨rfl, -⟩
    rfl
  · have notLoaded : ∀ image, self.data ≠ .loaded image :=
      fun image isData => isLoaded ⟨image, isData⟩
    rcases requestLayout_other notLoaded state with ⟨other, _, isPure, same, -⟩
    rw [isPure] at laidOut
    rcases Prod.mk.inj (Option.some.inj laidOut) with ⟨rfl, -⟩
    exact same

/-- Layout returns where it asks for frames that are there. -/
theorem exists_requestLayout {self : ImgElement K} {state : Option ImgState}
    (exist : ∀ use ∈ (self.requestLayout state).log, use.Exists) :
    ∃ drawn, (self.requestLayout state).result = some drawn := by
  by_cases isLoaded : ∃ image, self.data = .loaded image
  · rcases isLoaded with ⟨image, isLoaded⟩
    rw [requestLayout_loaded isLoaded, Logged.forall_log_bind] at exist
    rcases exists_advance exist.1 with ⟨next, advanced⟩
    have sized := (Logged.forall_log_bind.mp (exist.2 next advanced)).1
    have within := (renderSize_log image _).mp sized
    rw [requestLayout_loaded isLoaded]
    have frame : image.data[(state.getD .new).frameIndex]? =
        some image.data[(state.getD .new).frameIndex] :=
      List.getElem?_eq_getElem within
    simp only [Logged.bind, advanced, RenderImage.renderSize, RenderImage.size,
      RenderImage.frame, Logged.attempt, frame, Logged.pure]
    exact ⟨_, rfl⟩
  · have notLoaded : ∀ image, self.data ≠ .loaded image :=
      fun image isData => isLoaded ⟨image, isData⟩
    rcases requestLayout_other notLoaded state with ⟨layout, next, isPure, -, -⟩
    rw [isPure]
    exact ⟨_, rfl⟩

/-- Layout and paint ask for the frame whose index was kept. -/
theorem draw_log (state : Option ImgState) (self : ImgElement K) :
    (∀ use ∈ (draw state self).log, use.Exists) ↔
      ∀ image, self.data = .loaded image ∨ self.paintData = .loaded image →
        (state.getD .new).frameIndex < image.frameCount := by
  rw [draw, Logged.forall_log_bind, requestLayout_log]
  constructor
  · rintro ⟨within, painted⟩ image isLoaded
    rcases isLoaded with isLoaded | isLoaded
    · exact within image isLoaded
    · rcases exists_requestLayout ((requestLayout_log self state).mpr within) with
        ⟨⟨layout, next⟩, laidOut⟩
      have paintExists := (Logged.forall_log_bind.mp (painted _ laidOut)).1
      rw [← requestLayout_frameIndex laidOut]
      exact (paint_log self layout).mp paintExists image isLoaded
  · intro within
    refine ⟨fun image isLoaded => within image (.inl isLoaded), ?_⟩
    rintro ⟨layout, next⟩ laidOut
    rw [Logged.forall_log_bind, paint_log, requestLayout_frameIndex laidOut]
    exact ⟨fun image isLoaded => within image (.inr isLoaded),
      fun _ _ => RenderImage.forall_pure_log _⟩

/-- After a frame the index is one of the image that was laid out. -/
theorem draw_result {state next : Option ImgState} {self : ImgElement K}
    (drawn : (draw state self).result = some next) :
    ∃ kept, next = some kept ∧
      (∀ image, self.data = .loaded image → kept.frameIndex < image.frameCount) ∧
      ((∀ image, self.data ≠ .loaded image) →
        kept.frameIndex = (state.getD .new).frameIndex) := by
  rcases Logged.bind_result_eq_some drawn with ⟨⟨layout, kept⟩, laidOut, painted⟩
  rcases Logged.bind_result_eq_some painted with ⟨-, -, isNext⟩
  refine ⟨kept, (Option.some.inj isNext).symm, ?_, ?_⟩
  · intro image isLoaded
    rw [requestLayout_loaded isLoaded] at laidOut
    rcases Logged.bind_result_eq_some laidOut with ⟨advanced, isAdvanced, sized⟩
    rcases Logged.bind_result_eq_some sized with ⟨imageSize, isSize, isLayout⟩
    rcases Logged.bind_result_eq_some isSize with ⟨size, found, -⟩
    rcases Prod.mk.inj (Option.some.inj isLayout) with ⟨-, rfl⟩
    have within := advance_frameIndex (RenderImage.size_exists found) isAdvanced
    exact within
  · intro notLoaded
    rcases requestLayout_other notLoaded state with ⟨_, other, isPure, -, same⟩
    rw [isPure] at laidOut
    rcases Prod.mk.inj (Option.some.inj laidOut) with ⟨-, rfl⟩
    exact same

/-! ## Frame after frame -/

/-- The image that was laid out last. -/
def lastLaidOut (frames : List (ImgElement K)) : Option (RenderImage K) :=
  (frames.filterMap fun element =>
    match element.data with
    | .loaded image => some image
    | _ => none).getLast?

omit [Field K] in
theorem lastLaidOut_snoc_loaded (frames : List (ImgElement K)) {element : ImgElement K}
    {image : RenderImage K} (isLoaded : element.data = .loaded image) :
    lastLaidOut (frames ++ [element]) = some image := by
  simp [lastLaidOut, isLoaded]

omit [Field K] in
theorem lastLaidOut_snoc_other (frames : List (ImgElement K)) {element : ImgElement K}
    (notLoaded : ∀ image, element.data ≠ .loaded image) :
    lastLaidOut (frames ++ [element]) = lastLaidOut frames := by
  cases isData : element.data with
  | loaded image => exact absurd isData (notLoaded image)
  | failed => simp [lastLaidOut, isData]
  | loading => simp [lastLaidOut, isData]

/-- The index that is kept is one of the image that was laid out last. -/
theorem frameIndex_of_run {frames : List (ImgElement K)} {state : Option ImgState}
    (ran : (run frames).result = some state) :
    (∀ image, lastLaidOut frames = some image →
      (state.getD .new).frameIndex < image.frameCount) ∧
    (lastLaidOut frames = none → (state.getD .new).frameIndex = 0) := by
  induction frames using List.reverseRecOn generalizing state with
  | nil =>
      rcases Option.some.inj ran with rfl
      constructor
      · intro image isLast
        cases isLast
      · intro _
        rfl
  | append_singleton frames element ih =>
      rcases Logged.iterate_snoc_result ran with ⟨before, isBefore, drawn⟩
      rcases draw_result drawn with ⟨kept, rfl, ofLoaded, ofOther⟩
      by_cases isLoaded : ∃ image, element.data = .loaded image
      · rcases isLoaded with ⟨image, isLoaded⟩
        rw [lastLaidOut_snoc_loaded frames isLoaded]
        constructor
        · rintro last ⟨⟩
          exact ofLoaded image isLoaded
        · intro isNone
          cases isNone
      · have notLoaded : ∀ image, element.data ≠ .loaded image :=
          fun image isData => isLoaded ⟨image, isData⟩
        rw [lastLaidOut_snoc_other frames notLoaded, Option.getD_some, ofOther notLoaded]
        exact ih isBefore

/-- The frames return when those of the window do, in which the state is kept by the window. -/
theorem run_isSome {Key : Type} [DecidableEq Key] (key : Key) (frames : List (ImgElement K)) :
    (run frames).result.isSome =
      ((ElementStateWindow.new : ElementStateWindow fun _ : Key => ImgState).drawFrames key
        (frames.map (stepClosure draw))).isSome := by
  rw [ElementStateWindow.drawFrames_eq ElementStateWindow.new_idle]
  apply Eq.symm
  apply threadState_isSome
  intro state element next drawn
  rcases draw_result drawn with ⟨kept, rfl, -⟩
  rfl

/-- Images are asked for the frames they have if and only if no image with fewer frames
follows while the animation is beyond them. -/
theorem framesExist_iff (frames : List (ImgElement K)) :
    (∀ use ∈ (run frames).log, use.Exists) ↔
      ∀ before element after image last state, frames = before ++ element :: after →
        element.data = .loaded image ∨ element.paintData = .loaded image →
        lastLaidOut before = some last → image.frameCount < last.frameCount → (run before).result = some (some state) →
          state.frameIndex < image.frameCount := by
  rw [run, Logged.forall_log_iterate]
  constructor
  · intro exist before element after image last state split isLoaded _ _ ran
    exact (draw_log _ element).mp (exist before element after _ split ran) image isLoaded
  · intro stays before element after reached split ran
    rw [draw_log]
    intro image isLoaded
    rcases frameIndex_of_run ran with ⟨ofLast, ofNone⟩
    cases isLast : lastLaidOut before with
    | none =>
        rw [ofNone isLast]
        exact List.length_pos_of_ne_nil image.data_ne_nil
    | some last =>
        have within := ofLast last isLast
        by_cases fewer : image.frameCount < last.frameCount
        · cases reached with
          | none => exact List.length_pos_of_ne_nil image.data_ne_nil
          | some state =>
              exact stays before element after image last state split isLoaded isLast fewer ran
        · exact lt_of_lt_of_le within (not_lt.mp fewer)

/-- An image with two frames is animated to its second, and gives way to one with one frame. -/
theorem not_framesExist :
    ¬ ∀ frames : List (ImgElement ℚ), ∀ use ∈ (run frames).log, use.Exists := by
  intro exist
  let style : ImgStyle ℚ := ⟨.auto, .auto, none⟩
  let one : ImgElement ℚ :=
    let image := ImageData.loaded ⟨1, [⟨0, 8, 8⟩], List.cons_ne_nil _ _⟩
    ⟨image, image, 3, style, 16, false, false⟩
  let two (now : Nat) : ImgElement ℚ :=
    let image := ImageData.loaded ⟨1, [⟨1, 8, 8⟩, ⟨1, 8, 8⟩], List.cons_ne_nil _ _⟩
    ⟨image, image, now, style, 16, false, false⟩
  have moved : (Logged.iterate draw none [two 0, two 1]).result = some (some ⟨1, some 1, none⟩) :=
    rfl
  have existLast := Logged.forall_log_iterate.mp (exist [two 0, two 1, one]) [two 0, two 1] one []
    _ rfl moved
  have within := (draw_log _ one).mp existLast _ (.inl rfl)
  simp [RenderImage.frameCount] at within

end ImgElement

end Gpui
