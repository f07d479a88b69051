import Gpui.Elements.ClickListeners
import Gpui.Library.Transition

/-!
# Completed clicks

A click is completed when the left button goes up over the element that has received the
latest press of the left button, and nothing in between has been another click, another
release or a drag.

The listener for mouse-ups takes the press from the element in the capture phase and fires
the click in the bubble phase, whichever button goes up.  So a click is completed as long as
no one cuts the element off between the two, or from the events that end a press.
-/

namespace Gpui

open Library

variable {K V W : Type}

/-! ## Notes of the other listeners -/

/-- Drags have started while a press was held or not, and nothing else was noted. -/
def OnlyDrags (held : Bool) (notes : List (ClickNote K)) : Prop :=
  ∀ note ∈ notes, note = .dragStart held

theorem onlyDrags_nil (held : Bool) : OnlyDrags held ([] : List (ClickNote K)) := by
  intro note member
  cases member

theorem OnlyDrags.append {held : Bool} {first second : List (ClickNote K)}
    (firstOnly : OnlyDrags held first) (secondOnly : OnlyDrags held second) :
    OnlyDrags held (first ++ second) := by
  intro note member
  rcases List.mem_append.mp member with inFirst | inSecond
  · exact firstOnly note inFirst
  · exact secondOnly note inSecond

theorem onlyDrags_watchDrag (press : Press K V W) (before after : MouseApp V W) :
    OnlyDrags press.held (watchDrag press before after) := by
  intro note member
  rw [watchDrag] at member
  split at member
  · exact List.mem_singleton.mp member
  · cases member

/-- The other listeners leave the press alone. -/
theorem runWatched {phase : DispatchPhase} {listeners : List (OtherListener V W)}
    {app last : MouseApp V (Press K V W × W)} {done : List (ClickNote K)}
    (runs : runMouseListeners phase (listeners.map OtherListener.watched) app =
      some (done, last)) :
    last.rest.1 = app.rest.1 ∧ OnlyDrags app.rest.1.held done := by
  induction listeners generalizing app done with
  | nil =>
      cases runs
      exact ⟨rfl, onlyDrags_nil _⟩
  | cons listener listeners ih =>
      rw [List.map_cons, runMouseListeners] at runs
      rcases Option.bind_eq_some_iff.mp runs with ⟨⟨listened, next⟩, listens, goesOn⟩
      rcases Option.bind_eq_some_iff.mp listens with ⟨after, -, same⟩
      cases same
      change (if after.propagateEvent then _ else _) = _ at goesOn
      by_cases through : after.propagateEvent
      · rw [if_pos through] at goesOn
        rcases Option.bind_eq_some_iff.mp goesOn with ⟨⟨more, finish⟩, runsMore, same⟩
        cases same
        rcases ih runsMore with ⟨kept, only⟩
        exact ⟨kept, (onlyDrags_watchDrag _ _ _).append only⟩
      · rw [if_neg through] at goesOn
        cases goesOn
        exact ⟨rfl, onlyDrags_watchDrag _ _ _⟩

/-- The listeners let an event through. -/
def letsThrough (phase : DispatchPhase) (listeners : List (OtherListener V W))
    (app : MouseApp V (Press K V W × W)) : Bool :=
  match runMouseListeners phase (listeners.map OtherListener.watched) app with
  | some (_, app) => app.propagateEvent
  | none => false

/-- In a phase the other listeners keep the event from a listener, or it runs once. -/
theorem phase_cases {phase : DispatchPhase} {before after : List (OtherListener V W)}
    {listener : MouseListener (ClickNote K) V (Press K V W × W)}
    {app last : MouseApp V (Press K V W × W)} {done : List (ClickNote K)}
    (runs : runMouseListeners phase (before.map OtherListener.watched ++
      listener :: after.map OtherListener.watched) app = some (done, last))
    (start : app.propagateEvent = true) :
    letsThrough phase before app = false ∧ last.propagateEvent = false ∧
        last.rest.1 = app.rest.1 ∧ OnlyDrags app.rest.1.held done ∨
      letsThrough phase before app = true ∧ ∃ first middle listened next more,
        middle.rest.1 = app.rest.1 ∧ listener phase middle = some (listened, next) ∧
        done = first ++ (listened ++ more) ∧ OnlyDrags app.rest.1.held first ∧
        OnlyDrags next.rest.1.held more ∧ last.rest.1 = next.rest.1 := by
  rcases runMouseListeners_around runs start with ⟨first, middle, runsFirst, ends⟩
  rcases runWatched runsFirst with ⟨kept, only⟩
  rw [letsThrough, runsFirst]
  rcases ends with ⟨stopped, rfl, rfl⟩ | ⟨through, listened, next, more, listens, rfl, ends⟩
  · exact Or.inl ⟨stopped, stopped, kept, only⟩
  · refine Or.inr ⟨through, first, middle, listened, next, more, kept, listens, rfl, only, ?_⟩
    rcases ends with ⟨-, rfl, rfl⟩ | ⟨-, runsMore⟩
    · exact ⟨onlyDrags_nil _, rfl⟩
    · exact (runWatched runsMore).symm

namespace Clickable

variable [Field K] [LinearOrder K] {self : Clickable K V W} {refresh : W → W}

/-- The capture phase of an event comes to the element. -/
def arrivesCapture (front : List (OtherListener V W)) (app : MouseApp V (Press K V W × W)) :
    Bool :=
  letsThrough .capture front { app with propagateEvent := true }

/-- The bubble phase of an event comes to the element. -/
def arrivesBubble (self : Clickable K V W) (refresh : W → W) (input : MouseInput K)
    (hovered : Bool) (front behind : List (OtherListener V W))
    (app : MouseApp V (Press K V W × W)) : Bool :=
  match runMouseListeners .capture (self.mouseListeners refresh input hovered front behind)
      { app with propagateEvent := true } with
  | some (_, middle) => middle.propagateEvent && letsThrough .bubble behind.reverse middle
  | none => false

omit [Field K] [LinearOrder K] in
/-- The end of a dispatch leaves the press alone. -/
theorem endDispatch_press (kind : MouseEventKind) (app : MouseApp V (Press K V W × W)) :
    (endDispatch (fun rest => (rest.1, refresh rest.2)) kind app).rest.1 = app.rest.1 := by
  unfold endDispatch
  split
  · cases kind <;> rfl
  · rfl

variable {input : MouseInput K} {hovered : Bool} {front behind : List (OtherListener V W)}
  {app last : MouseApp V (Press K V W × W)} {done : List (ClickNote K)}

/-- Events whose capture phase means nothing to the element are for its bubble phase. -/
theorem dispatch_bubble
    (ignored : ∀ app, self.onMouseEvent refresh input hovered .capture app = some ([], app))
    (dispatched : self.dispatch refresh input hovered front behind app = some (done, last)) :
    self.arrivesBubble refresh input hovered front behind app = false ∧
        last.rest.1 = app.rest.1 ∧ OnlyDrags app.rest.1.held done ∨
      self.arrivesBubble refresh input hovered front behind app = true ∧
        ∃ first middle listened next more,
          middle.rest.1 = app.rest.1 ∧
          self.onMouseEvent refresh input hovered .bubble middle = some (listened, next) ∧
          done = first ++ (listened ++ more) ∧ OnlyDrags app.rest.1.held first ∧
          OnlyDrags next.rest.1.held more ∧ last.rest.1 = next.rest.1 := by
  rcases dispatchMouseEvent_phases dispatched with ⟨captured, middle, captures, ends⟩
  have capture : middle.rest.1 = app.rest.1 ∧ OnlyDrags app.rest.1.held captured := by
    rcases phase_cases captures rfl with ⟨-, -, kept, only⟩ |
      ⟨-, first, early, listened, next, more, kept, listens, rfl, onlyFirst, onlyMore, ends⟩
    · exact ⟨kept, only⟩
    · rw [ignored] at listens
      cases listens
      rw [kept] at onlyMore
      exact ⟨ends.trans kept, onlyFirst.append onlyMore⟩
  rcases capture with ⟨kept, onlyCaptured⟩
  rw [arrivesBubble, captures]
  rcases ends with ⟨stopped, rfl, rfl⟩ | ⟨through, bubbled, after, bubbles, rfl, rfl⟩
  · left
    refine ⟨?_, ?_, onlyCaptured⟩
    · change (middle.propagateEvent && _) = false
      rw [stopped, Bool.false_and]
    · rw [endDispatch_press]
      exact kept
  · have reversed : (self.mouseListeners refresh input hovered front behind).reverse =
        behind.reverse.map OtherListener.watched ++
          self.onMouseEvent refresh input hovered ::
            front.reverse.map OtherListener.watched := by
      simp [mouseListeners]
    rw [reversed] at bubbles
    change (middle.propagateEvent && letsThrough .bubble behind.reverse middle) = false ∧ _ ∨
      (middle.propagateEvent && letsThrough .bubble behind.reverse middle) = true ∧ _
    rw [through, Bool.true_and, endDispatch_press]
    rcases phase_cases bubbles through with ⟨arrives, -, same, only⟩ |
      ⟨arrives, first, middle', listened, next, more, same, listens, rfl, onlyFirst, onlyMore,
        ends⟩
    · rw [kept] at only
      exact Or.inl ⟨arrives, same.trans kept, onlyCaptured.append only⟩
    · rw [kept] at onlyFirst
      refine Or.inr ⟨arrives, captured ++ first, middle', listened, next, more,
        same.trans kept, listens, ?_, onlyCaptured.append onlyFirst, onlyMore, ends⟩
      rw [List.append_assoc]

/-- A mouse-down is received, or it changes nothing. -/
theorem dispatch_down {event : MouseDownEvent K}
    (dispatched : self.dispatch refresh (.down event) hovered front behind app =
      some (done, last)) :
    (event.button = .left ∧ hovered = true ∧
        self.arrivesBubble refresh (.down event) hovered front behind app = true) ∧
        last.rest.1 = { app.rest.1 with pendingMouseDown := some event } ∧
        (∃ first more, done = first ++ .received :: more ∧ OnlyDrags app.rest.1.held first ∧
          OnlyDrags true more) ∨
      ¬ (event.button = .left ∧ hovered = true ∧
          self.arrivesBubble refresh (.down event) hovered front behind app = true) ∧
        last.rest.1 = app.rest.1 ∧ OnlyDrags app.rest.1.held done := by
  have ignored : ∀ app : MouseApp V (Press K V W × W),
      self.onMouseEvent refresh (.down event) hovered .capture app = some ([], app) := by
    intro app
    have capturing :
        ¬ (DispatchPhase.capture = .bubble ∧ event.button = .left ∧ hovered = true) := by
      rintro ⟨bubble, -⟩
      cases bubble
    change onMouseDown refresh event hovered .capture app = _
    rw [onMouseDown, if_neg capturing]
  rcases dispatch_bubble ignored dispatched with ⟨missed, kept, only⟩ |
    ⟨arrives, first, middle, listened, next, more, kept, listens, rfl, onlyFirst, onlyMore, ends⟩
  · right
    refine ⟨?_, kept, only⟩
    rintro ⟨-, -, arrives⟩
    exact Bool.noConfusion (missed.symm.trans arrives)
  · change onMouseDown refresh event hovered .bubble middle = _ at listens
    rw [onMouseDown] at listens
    by_cases taken : DispatchPhase.bubble = .bubble ∧ event.button = .left ∧ hovered = true
    · rw [if_pos taken] at listens
      cases listens
      left
      refine ⟨⟨taken.2.1, taken.2.2, arrives⟩, ?_, first, more, rfl, onlyFirst, onlyMore⟩
      rw [ends]
      change { middle.rest.1 with pendingMouseDown := some event } = _
      rw [kept]
    · rw [if_neg taken] at listens
      cases listens
      right
      rw [kept] at onlyMore
      refine ⟨?_, ends.trans kept, onlyFirst.append onlyMore⟩
      rintro ⟨isLeft, isHovered, -⟩
      exact taken ⟨rfl, isLeft, isHovered⟩

/-- A mouse-move starts a drag and ends the press, or it changes nothing. -/
theorem dispatch_move {event : MouseMoveEvent K}
    (dispatched : self.dispatch refresh (.move event) hovered front behind app =
      some (done, last)) :
    last.rest.1.pendingMouseDown = none ∧
        last.rest.1.capturedMouseDown = app.rest.1.capturedMouseDown ∧
        (∀ note ∈ done, ∃ held, note = .dragStart held) ∨
      last.rest.1 = app.rest.1 ∧ OnlyDrags app.rest.1.held done := by
  rcases dispatch_bubble (fun _ => rfl) dispatched with ⟨-, kept, only⟩ |
    ⟨-, first, middle, listened, next, more, kept, listens, rfl, onlyFirst, onlyMore, ends⟩
  · exact Or.inr ⟨kept, only⟩
  · have unchanged : some (listened, next) = some ([], middle) →
        last.rest.1 = app.rest.1 ∧
          OnlyDrags app.rest.1.held (first ++ (listened ++ more)) := by
      intro same
      cases same
      rw [kept] at onlyMore
      exact ⟨ends.trans kept, onlyFirst.append onlyMore⟩
    change self.onMouseMove refresh event .bubble middle = _ at listens
    unfold onMouseMove at listens
    split at listens
    next pending dragging =>
      split at listens
      · cases listens
        left
        refine ⟨by rw [ends], ?_, ?_⟩
        · rw [ends, ← kept]
        · intro note member
          rcases List.mem_append.mp member with inFirst | member
          · exact ⟨_, onlyFirst note inFirst⟩
          · rcases List.mem_append.mp member with own | inMore
            · exact ⟨_, List.mem_singleton.mp own⟩
            · exact ⟨_, onlyMore note inMore⟩
      · exact Or.inr (unchanged listens.symm)
    next => exact Or.inr (unchanged listens.symm)

/-- What the capture phase of a mouse-up makes of a press. -/
def capturePress (hovered : Bool) (press : Press K V W) : Press K V W :=
  match press.pendingMouseDown with
  | some mouseDown =>
      { press with
        pendingMouseDown := none
        capturedMouseDown := if hovered then some mouseDown else press.capturedMouseDown }
  | none => press

variable (self refresh hovered) in
omit [Field K] [LinearOrder K] in
theorem onMouseUp_capture (event : MouseUpEvent K) (app : MouseApp V (Press K V W × W)) :
    ∃ next, self.onMouseUp refresh event hovered .capture app = some ([], next) ∧
      next.rest.1 = capturePress hovered app.rest.1 := by
  cases pending : app.rest.1.pendingMouseDown with
  | none =>
      refine ⟨app, ?_, ?_⟩
      · simp only [onMouseUp, pending]
      · rw [capturePress, pending]
  | some mouseDown =>
      refine ⟨{ app with rest := (capturePress hovered app.rest.1, refresh app.rest.2) }, ?_, rfl⟩
      simp only [onMouseUp, capturePress, pending]

/-- The capture phase of a mouse-up. -/
theorem capture_up {event : MouseUpEvent K} {middle : MouseApp V (Press K V W × W)}
    {captured : List (ClickNote K)}
    (captures : runMouseListeners .capture
      (self.mouseListeners refresh (.up event) hovered front behind)
      { app with propagateEvent := true } = some (captured, middle)) :
    arrivesCapture front app = false ∧ middle.propagateEvent = false ∧
        middle.rest.1 = app.rest.1 ∧ OnlyDrags app.rest.1.held captured ∨
      arrivesCapture front app = true ∧ middle.rest.1 = capturePress hovered app.rest.1 ∧
        ∃ first more, captured = first ++ more ∧ OnlyDrags app.rest.1.held first ∧
          OnlyDrags (capturePress hovered app.rest.1).held more := by
  rcases phase_cases captures rfl with stopped |
    ⟨arrives, first, early, listened, next, more, kept, listens, rfl, onlyFirst, onlyMore, ends⟩
  · exact Or.inl stopped
  · rcases onMouseUp_capture self refresh hovered event early with
      ⟨next', listens', press⟩
    rcases Option.some.inj (listens.symm.trans listens') with ⟨rfl, rfl⟩
    rw [kept] at press
    rw [press] at onlyMore ends
    exact Or.inr ⟨arrives, ends, first, more, rfl, onlyFirst, onlyMore⟩

/-- The bubble phase of a mouse-up. -/
theorem bubble_up {event : MouseUpEvent K} {middle after : MouseApp V (Press K V W × W)}
    {bubbled : List (ClickNote K)}
    (bubbles : runMouseListeners .bubble
      (self.mouseListeners refresh (.up event) hovered front behind).reverse middle =
        some (bubbled, after))
    (through : middle.propagateEvent = true) :
    (middle.rest.1.capturedMouseDown = none ∨ letsThrough .bubble behind.reverse middle = false) ∧
        after.rest.1 = middle.rest.1 ∧ OnlyDrags middle.rest.1.held bubbled ∨
      letsThrough .bubble behind.reverse middle = true ∧ ∃ mouseDown first more,
        middle.rest.1.capturedMouseDown = some mouseDown ∧
        after.rest.1 = { middle.rest.1 with capturedMouseDown := none } ∧
        bubbled = first ++ .click ⟨mouseDown, event⟩ :: more ∧
        OnlyDrags middle.rest.1.held first ∧
        OnlyDrags middle.rest.1.pendingMouseDown.isSome more := by
  have reversed : (self.mouseListeners refresh (.up event) hovered front behind).reverse =
      behind.reverse.map OtherListener.watched ++
        self.onMouseEvent refresh (.up event) hovered ::
          front.reverse.map OtherListener.watched := by
    simp [mouseListeners]
  rw [reversed] at bubbles
  rcases phase_cases bubbles through with ⟨missed, -, same, only⟩ |
    ⟨arrives, first, early, listened, next, more, same, listens, rfl, onlyFirst, onlyMore, ends⟩
  · exact Or.inl ⟨Or.inr missed, same, only⟩
  · cases captured : middle.rest.1.capturedMouseDown with
    | none =>
        have nothing : self.onMouseUp refresh event hovered .bubble early = some ([], early) := by
          simp only [onMouseUp, same, captured]
        rcases Option.some.inj (listens.symm.trans nothing) with ⟨rfl, rfl⟩
        rw [same] at onlyMore
        exact Or.inl ⟨Or.inl rfl, ends.trans same, onlyFirst.append onlyMore⟩
    | some mouseDown =>
        right
        let press := { middle.rest.1 with capturedMouseDown := none }
        let outcome := self.clickListeners.foldl
          (fun app listener => listener { down := mouseDown, up := event } app) early.others
        have fires : self.onMouseUp refresh event hovered .bubble early =
            some (.click ⟨mouseDown, event⟩ :: watchDrag press early.others outcome,
              outcome.withPress press) := by
          simp only [onMouseUp, same, captured]
          rfl
        rcases Option.some.inj (listens.symm.trans fires) with ⟨rfl, rfl⟩
        have pressHeld : press.held = middle.rest.1.pendingMouseDown.isSome := by
          simp [press, Press.held]
        refine ⟨arrives, mouseDown, first, watchDrag press early.others outcome ++ more, rfl, ends,
          ?_, onlyFirst, ?_⟩
        · rw [List.cons_append]
        · rw [← pressHeld]
          exact (onlyDrags_watchDrag _ _ _).append onlyMore

/-- Without a press a mouse-up changes nothing. -/
theorem dispatch_up_idle {event : MouseUpEvent K} (idle : app.rest.1.pendingMouseDown = none)
    (empty : app.rest.1.capturedMouseDown = none)
    (dispatched : self.dispatch refresh (.up event) hovered front behind app =
      some (done, last)) :
    last.rest.1 = app.rest.1 ∧ OnlyDrags app.rest.1.held done := by
  have same : capturePress hovered app.rest.1 = app.rest.1 := by
    rw [capturePress, idle]
  rcases dispatchMouseEvent_phases dispatched with ⟨captured, middle, captures, ends⟩
  have capture : middle.rest.1 = app.rest.1 ∧ OnlyDrags app.rest.1.held captured := by
    rcases capture_up captures with ⟨-, -, kept, only⟩ |
      ⟨-, kept, first, more, rfl, onlyFirst, onlyMore⟩
    · exact ⟨kept, only⟩
    · rw [same] at kept onlyMore
      exact ⟨kept, onlyFirst.append onlyMore⟩
  rcases capture with ⟨kept, only⟩
  rcases ends with ⟨-, rfl, rfl⟩ | ⟨through, bubbled, after, bubbles, rfl, rfl⟩
  · rw [endDispatch_press]
    exact ⟨kept, only⟩
  · rw [endDispatch_press]
    rcases bubble_up bubbles through with ⟨-, bubbledSame, bubbledOnly⟩ |
      ⟨-, mouseDown, first, more, held, -⟩
    · rw [kept] at bubbledSame bubbledOnly
      exact ⟨bubbledSame, only.append bubbledOnly⟩
    · rw [kept, empty] at held
      cases held

/-- A press that is pending stays, is dropped or is completed by a mouse-up. -/
theorem dispatch_up_pending {event : MouseUpEvent K} {mouseDown : MouseDownEvent K}
    (pending : app.rest.1.pendingMouseDown = some mouseDown)
    (empty : app.rest.1.capturedMouseDown = none)
    (dispatched : self.dispatch refresh (.up event) hovered front behind app =
      some (done, last)) :
    arrivesCapture front app = false ∧ last.rest.1 = app.rest.1 ∧ OnlyDrags true done ∨
      arrivesCapture front app = true ∧ hovered = false ∧
        last.rest.1.pendingMouseDown = none ∧ last.rest.1.capturedMouseDown = none ∧
        (∀ note ∈ done, ∃ held, note = .dragStart held) ∨
      arrivesCapture front app = true ∧ hovered = true ∧
        (self.arrivesBubble refresh (.up event) hovered front behind app = true →
          last.rest.1.pendingMouseDown = none ∧ last.rest.1.capturedMouseDown = none ∧
          ∃ first more, done = first ++ .click ⟨mouseDown, event⟩ :: more ∧
            OnlyDrags true first ∧ OnlyDrags false more) := by
  have appHeld : app.rest.1.held = true := by
    simp [Press.held, pending]
  rcases dispatchMouseEvent_phases dispatched with ⟨captured, middle, captures, ends⟩
  rw [arrivesBubble, captures]
  change _ ∨ _ ∨ _ ∧ _ ∧ ((middle.propagateEvent && letsThrough .bubble behind.reverse middle) =
    true → _)
  rcases capture_up captures with ⟨missed, stopped, kept, only⟩ |
    ⟨arrives, taken, early, late, rfl, onlyEarly, onlyLate⟩
  · left
    rw [appHeld] at only
    rcases ends with ⟨-, rfl, rfl⟩ | ⟨through, -⟩
    · rw [endDispatch_press]
      exact ⟨missed, kept, only⟩
    · exact Bool.noConfusion (stopped.symm.trans through)
  · right
    rw [appHeld] at onlyEarly
    have nonePending : middle.rest.1.pendingMouseDown = none := by
      rw [taken, capturePress, pending]
    cases hovered with
    | false =>
        left
        have noneCaptured : middle.rest.1.capturedMouseDown = none := by
          rw [taken, capturePress, pending]
          exact empty
        have drags : ∀ note ∈ early ++ late, ∃ held, note = ClickNote.dragStart held := by
          intro note member
          rcases List.mem_append.mp member with inEarly | inLate
          · exact ⟨_, onlyEarly note inEarly⟩
          · exact ⟨_, onlyLate note inLate⟩
        rcases ends with ⟨-, rfl, rfl⟩ | ⟨through, bubbled, after, bubbles, rfl, rfl⟩
        · rw [endDispatch_press]
          exact ⟨arrives, rfl, nonePending, noneCaptured, drags⟩
        · rw [endDispatch_press]
          rcases bubble_up bubbles through with ⟨-, same, only⟩ |
            ⟨-, other, first, more, held, -⟩
          · rw [same]
            refine ⟨arrives, rfl, nonePending, noneCaptured, ?_⟩
            intro note member
            rcases List.mem_append.mp member with inCapture | inBubble
            · exact drags note inCapture
            · exact ⟨_, only note inBubble⟩
          · rw [noneCaptured] at held
            cases held
    | true =>
        right
        refine ⟨arrives, rfl, ?_⟩
        intro arrivesBoth
        rw [Bool.and_eq_true] at arrivesBoth
        have isCaptured : middle.rest.1.capturedMouseDown = some mouseDown := by
          rw [taken, capturePress, pending]
          rfl
        have lateHeld : (capturePress true app.rest.1).held = true := by
          simp [capturePress, pending, Press.held]
        rw [lateHeld] at onlyLate
        rcases ends with ⟨stopped, -, -⟩ | ⟨through, bubbled, after, bubbles, rfl, rfl⟩
        · exact Bool.noConfusion (stopped.symm.trans arrivesBoth.1)
        · rw [endDispatch_press]
          rcases bubble_up bubbles through with ⟨kept, -⟩ |
            ⟨-, other, first, more, held, same, rfl, onlyFirst, onlyMore⟩
          · rcases kept with nothing | missed
            · rw [isCaptured] at nothing
              cases nothing
            · exact Bool.noConfusion (missed.symm.trans arrivesBoth.2)
          · rcases Option.some.inj (isCaptured.symm.trans held) with rfl
            have middleHeld : middle.rest.1.held = true := by
              simp [Press.held, isCaptured]
            rw [middleHeld] at onlyFirst
            rw [nonePending] at onlyMore
            rw [same]
            refine ⟨nonePending, rfl, early ++ late ++ first, more, ?_,
              (onlyEarly.append onlyLate).append onlyFirst, onlyMore⟩
            simp only [List.append_assoc]

end Clickable

/-! ## What has been noted -/

/-- Neither a press nor a release of the left button, neither a drag nor a click. -/
def ClickNote.Quiet : ClickNote K → Prop
  | .event (.down mouseDown) _ => mouseDown.button ≠ .left
  | .event (.up mouseUp) _ => mouseUp.button ≠ .left
  | .event (.move _) _ => True
  | .received => True
  | .dragStart _ => False
  | .click _ => False

def ClickNote.IsEvent : ClickNote K → Prop
  | .event _ _ => True
  | _ => False

/-- A press that the element has received is followed by nothing that ends it. -/
def Pressed (notes : List (ClickNote K)) (mouseDown : MouseDownEvent K) : Prop :=
  ∃ earlier between, notes = earlier ++ .event (.down mouseDown) true :: between ∧
    mouseDown.button = .left ∧ .received ∈ between ∧ ∀ note ∈ between, note.Quiet

/-- What has been noted before a click completes it: the button has gone down and comes up
over the element. -/
def Completed (notes : List (ClickNote K)) (click : MouseClickEvent K) : Prop :=
  ∃ before during, notes = before ++ .event (.up click.up) true :: during ∧
    Pressed before click.down ∧ click.up.button = .left ∧
    ∀ note ∈ during, note.Quiet ∧ ¬ note.IsEvent

/-- All clicks have been completed presses. -/
def ClicksCompleted (notes : List (ClickNote K)) : Prop :=
  ∀ before click after, notes = before ++ .click click :: after → Completed before click

theorem clicksCompleted_nil : ClicksCompleted ([] : List (ClickNote K)) := by
  intro before click after split
  simp at split

theorem ClicksCompleted.append {notes more : List (ClickNote K)}
    (completed : ClicksCompleted notes) (noClick : ∀ click, .click click ∉ more) :
    ClicksCompleted (notes ++ more) := by
  intro before click after split
  rcases List.append_eq_append_iff.mp split with ⟨middle, rfl, inMore⟩ | ⟨middle, rfl, inNotes⟩
  · exact absurd (inMore ▸ List.mem_append_right middle List.mem_cons_self) (noClick click)
  · cases middle with
    | nil =>
        rw [List.nil_append] at inNotes
        exact absurd (inNotes ▸ List.mem_cons_self) (noClick click)
    | cons first middle =>
        rcases List.cons.inj inNotes with ⟨rfl, -⟩
        exact completed before click middle rfl

/-- Between two clicks the left button has gone down again. -/
theorem ClicksCompleted.pressed_anew {front between back : List (ClickNote K)}
    {first second : MouseClickEvent K}
    (completed : ClicksCompleted (front ++ .click first :: (between ++ .click second :: back))) :
    .event (.down second.down) true ∈ between ∧ second.down.button = .left := by
  have whole : front ++ .click first :: (between ++ .click second :: back) =
      (front ++ .click first :: between) ++ .click second :: back := by
    rw [List.append_assoc, List.cons_append]
  rcases completed _ second back whole with
    ⟨before, during, split, ⟨earlier, pressed, rfl, left, -, quiet⟩, -, duringQuiet⟩
  refine ⟨?_, left⟩
  have noClick : .click first ∉ pressed ++ .event (.up second.up) true :: during := by
    intro member
    rcases List.mem_append.mp member with inPressed | member
    · exact quiet _ inPressed
    · rcases List.mem_cons.mp member with isEvent | inDuring
      · cases isEvent
      · exact (duringQuiet _ inDuring).1
  rw [List.append_assoc, List.cons_append] at split
  rcases List.append_eq_append_iff.mp split with ⟨middle, -, inBetween⟩ | ⟨middle, -, inPressed⟩
  · cases middle with
    | nil => cases (List.cons.inj inBetween).1
    | cons _ middle =>
        rw [(List.cons.inj inBetween).2]
        exact List.mem_append_right _ List.mem_cons_self
  · cases middle with
    | nil => cases (List.cons.inj inPressed).1
    | cons _ middle =>
        rw [(List.cons.inj inPressed).2] at noClick
        exact absurd (List.mem_append_right _ List.mem_cons_self) noClick

theorem Pressed.append {notes more : List (ClickNote K)} {mouseDown : MouseDownEvent K}
    (pressed : Pressed notes mouseDown) (quiet : ∀ note ∈ more, note.Quiet) :
    Pressed (notes ++ more) mouseDown := by
  rcases pressed with ⟨earlier, between, rfl, left, received, allQuiet⟩
  refine ⟨earlier, between ++ more, ?_, left, List.mem_append_left _ received, ?_⟩
  · rw [List.append_assoc, List.cons_append]
  · intro note member
    rcases List.mem_append.mp member with inBetween | inMore
    · exact allQuiet note inBetween
    · exact quiet note inMore

/-- A click of a press completes it. -/
theorem ClicksCompleted.click {notes first more : List (ClickNote K)}
    {mouseDown : MouseDownEvent K} {event : MouseUpEvent K} (completed : ClicksCompleted notes)
    (pressed : Pressed notes mouseDown) (left : event.button = .left)
    (quietFirst : ∀ note ∈ first, note.Quiet ∧ ¬ note.IsEvent)
    (noClick : ∀ click, .click click ∉ more) :
    ClicksCompleted (notes ++ .event (.up event) true ::
      (first ++ .click ⟨mouseDown, event⟩ :: more)) := by
  have before : ClicksCompleted (notes ++ .event (.up event) true :: first) := by
    apply completed.append
    intro click member
    rcases List.mem_cons.mp member with isEvent | inFirst
    · cases isEvent
    · exact (quietFirst _ inFirst).1
  have upToClick : ClicksCompleted
      ((notes ++ .event (.up event) true :: first) ++ [.click ⟨mouseDown, event⟩]) := by
    intro front click after split
    rcases snoc_eq_append_cons split with ⟨-, rfl, same⟩ | ⟨rest, -, earlier⟩
    · cases same
      exact ⟨notes, first, rfl, pressed, left, quietFirst⟩
    · exact before front click rest earlier
  have whole := upToClick.append noClick
  simpa only [List.append_assoc, List.cons_append, List.nil_append] using whole

theorem OnlyDrags.no_click {held : Bool} {notes : List (ClickNote K)} (only : OnlyDrags held notes)
    (click : MouseClickEvent K) : .click click ∉ notes := by
  intro member
  cases only _ member

theorem OnlyDrags.eq_nil {held : Bool} {notes : List (ClickNote K)} (only : OnlyDrags held notes)
    (none : .dragStart held ∉ notes) : notes = [] := by
  rw [List.eq_nil_iff_forall_not_mem]
  intro note member
  exact none (only note member ▸ member)

namespace Clickable

/-- Between the events nothing is captured, and what is pending has been pressed. -/
structure Sound (notes : List (ClickNote K)) (press : Press K V W) : Prop where
  captured : press.capturedMouseDown = none
  completed : ClicksCompleted notes
  pending : ∀ mouseDown, press.pendingMouseDown = some mouseDown → Pressed notes mouseDown

/-- What changes nothing but for drags is sound while it is quiet. -/
theorem Sound.unchanged {notes more : List (ClickNote K)} {press : Press K V W}
    (sound : Sound notes press) (noClick : ∀ click, .click click ∉ more)
    (quiet : press.pendingMouseDown.isSome → ∀ note ∈ more, note.Quiet) :
    Sound (notes ++ more) press where
  captured := sound.captured
  completed := sound.completed.append noClick
  pending := by
    intro mouseDown pending
    exact (sound.pending mouseDown pending).append (quiet (by rw [pending]; rfl))

/-- Without a press there is nothing to be completed. -/
theorem Sound.idle {notes more : List (ClickNote K)} {press next : Press K V W}
    (sound : Sound notes press) (noClick : ∀ click, .click click ∉ more)
    (empty : next.capturedMouseDown = none) (idle : next.pendingMouseDown = none) :
    Sound (notes ++ more) next where
  captured := empty
  completed := sound.completed.append noClick
  pending := by
    intro mouseDown pending
    rw [idle] at pending
    cases pending

variable [Field K] [LinearOrder K] (self : Clickable K V W) (refresh : W → W)

/-- No drag starts with the event while the element holds a press. -/
def NoHeldDrag (input : MouseInput K) (hovered : Bool) (front behind : List (OtherListener V W))
    (app : MouseApp V (Press K V W × W)) : Prop :=
  ∀ done last, self.dispatch refresh input hovered front behind app = some (done, last) →
    .dragStart true ∉ done

/-- No drag starts with the event. -/
def NoDrag (input : MouseInput K) (hovered : Bool) (front behind : List (OtherListener V W))
    (app : MouseApp V (Press K V W × W)) : Prop :=
  ∀ done last, self.dispatch refresh input hovered front behind app = some (done, last) →
    ∀ held, .dragStart held ∉ done

/-- The element is not cut off from a press that it holds or receives. -/
def Undisturbed (state : State K V W) : Step K V W → Prop
  | .dispatch (.down event) hovered front behind =>
      let received := event.button = .left ∧ hovered = true ∧
        self.arrivesBubble refresh (.down event) hovered front behind state.app = true
      (received → self.NoDrag refresh (.down event) hovered front behind state.app) ∧
      (state.press.pendingMouseDown.isSome → (event.button = .left → received) ∧
        self.NoHeldDrag refresh (.down event) hovered front behind state.app)
  | .dispatch (.move event) hovered front behind =>
      state.press.pendingMouseDown.isSome →
        self.NoHeldDrag refresh (.move event) hovered front behind state.app
  | .dispatch (.up event) hovered front behind =>
      state.press.pendingMouseDown.isSome →
        if arrivesCapture front state.app then
          hovered = true → event.button = .left ∧
            self.arrivesBubble refresh (.up event) hovered front behind state.app = true ∧
            self.NoHeldDrag refresh (.up event) hovered front behind state.app
        else
          event.button ≠ .left ∧
            self.NoHeldDrag refresh (.up event) hovered front behind state.app
  | .elsewhere app =>
      state.press.pendingMouseDown.isSome →
        state.app.activeDrag.isNone → app.activeDrag.isNone
  | .paint _ => True

variable {self refresh}

theorem Sound.down {state : State K V W} {event : MouseDownEvent K} {hovered : Bool}
    {front behind : List (OtherListener V W)} {done : List (ClickNote K)}
    {last : MouseApp V (Press K V W × W)} (sound : Sound state.notes state.press)
    (undisturbed : self.Undisturbed refresh state (.dispatch (.down event) hovered front behind))
    (dispatched : self.dispatch refresh (.down event) hovered front behind state.app =
      some (done, last)) :
    Sound (state.notes ++ .event (.down event) hovered :: done) last.rest.1 := by
  rcases undisturbed with ⟨noDrag, whilePending⟩
  rcases dispatch_down dispatched with ⟨received, press, first, more, rfl, onlyFirst, onlyMore⟩ |
    ⟨missed, press, only⟩
  · have none := noDrag received _ _ dispatched
    have firstNil : first = [] :=
      onlyFirst.eq_nil fun member => none _ (List.mem_append_left _ member)
    have moreNil : more = [] :=
      onlyMore.eq_nil fun member =>
        none _ (List.mem_append_right _ (List.mem_cons_of_mem _ member))
    subst first
    subst more
    rw [press, received.2.1]
    constructor
    · exact sound.captured
    · apply sound.completed.append
      intro click member
      simp at member
    · intro mouseDown pending
      cases pending
      refine ⟨state.notes, [.received], rfl, received.1, List.mem_singleton_self _, ?_⟩
      intro note member
      rw [List.mem_singleton.mp member]
      trivial
  · rw [press]
    apply sound.unchanged
    · intro click member
      rcases List.mem_cons.mp member with isEvent | inDone
      · cases isEvent
      · exact only.no_click click inDone
    · intro pending note member
      rcases whilePending pending with ⟨receives, noHeldDrag⟩
      have held : state.app.rest.1.held = true := by
        rw [Press.held, Bool.or_eq_true]
        exact Or.inl pending
      rw [held] at only
      have doneNil := only.eq_nil (noHeldDrag _ _ dispatched)
      subst done
      rw [List.mem_singleton.mp member]
      exact fun left => missed (receives left)

theorem Sound.move {state : State K V W} {event : MouseMoveEvent K} {hovered : Bool}
    {front behind : List (OtherListener V W)} {done : List (ClickNote K)}
    {last : MouseApp V (Press K V W × W)} (sound : Sound state.notes state.press)
    (undisturbed : self.Undisturbed refresh state (.dispatch (.move event) hovered front behind))
    (dispatched : self.dispatch refresh (.move event) hovered front behind state.app =
      some (done, last)) :
    Sound (state.notes ++ .event (.move event) hovered :: done) last.rest.1 := by
  rcases dispatch_move dispatched with ⟨idle, captured, drags⟩ | ⟨press, only⟩
  · apply sound.idle _ (captured.trans sound.captured) idle
    intro click member
    rcases List.mem_cons.mp member with isEvent | inDone
    · cases isEvent
    · rcases drags _ inDone with ⟨held, isDrag⟩
      cases isDrag
  · rw [press]
    apply sound.unchanged
    · intro click member
      rcases List.mem_cons.mp member with isEvent | inDone
      · cases isEvent
      · exact only.no_click click inDone
    · intro pending note member
      have held : state.app.rest.1.held = true := by
        rw [Press.held, Bool.or_eq_true]
        exact Or.inl pending
      rw [held] at only
      have doneNil := only.eq_nil (undisturbed pending _ _ dispatched)
      subst done
      rw [List.mem_singleton.mp member]
      trivial

theorem Sound.up {state : State K V W} {event : MouseUpEvent K} {hovered : Bool}
    {front behind : List (OtherListener V W)} {done : List (ClickNote K)}
    {last : MouseApp V (Press K V W × W)} (sound : Sound state.notes state.press)
    (undisturbed : self.Undisturbed refresh state (.dispatch (.up event) hovered front behind))
    (dispatched : self.dispatch refresh (.up event) hovered front behind state.app =
      some (done, last)) :
    Sound (state.notes ++ .event (.up event) hovered :: done) last.rest.1 := by
  cases pending : state.press.pendingMouseDown with
  | none =>
      rcases dispatch_up_idle pending sound.captured dispatched with ⟨press, only⟩
      rw [press]
      apply sound.unchanged
      · intro click member
        rcases List.mem_cons.mp member with isEvent | inDone
        · cases isEvent
        · exact only.no_click click inDone
      · intro isSome
        rw [pending] at isSome
        cases isSome
  | some mouseDown =>
      have condition := undisturbed (by rw [pending]; rfl)
      rcases dispatch_up_pending pending sound.captured dispatched with ⟨missed, press, only⟩ |
        ⟨arrives, -, idle, captured, drags⟩ | ⟨arrives, isHovered, completes⟩
      · rw [if_neg (by rw [missed]; exact Bool.false_ne_true)] at condition
        have doneNil := only.eq_nil (condition.2 _ _ dispatched)
        subst done
        rw [press]
        apply sound.unchanged
        · intro click member
          simp at member
        · intro _ note member
          rw [List.mem_singleton.mp member]
          exact condition.1
      · apply sound.idle _ captured idle
        intro click member
        rcases List.mem_cons.mp member with isEvent | inDone
        · cases isEvent
        · rcases drags _ inDone with ⟨held, isDrag⟩
          cases isDrag
      · rw [if_pos arrives] at condition
        rcases condition isHovered with ⟨left, arrivesToo, noHeldDrag⟩
        rcases completes arrivesToo with ⟨idle, captured, first, more, rfl, onlyFirst, onlyMore⟩
        have firstNil : first = [] :=
          onlyFirst.eq_nil fun member =>
            noHeldDrag _ _ dispatched (List.mem_append_left _ member)
        subst first
        subst isHovered
        constructor
        · exact captured
        · have nothing : ∀ note ∈ ([] : List (ClickNote K)), note.Quiet ∧ ¬ note.IsEvent := by
            intro note member
            cases member
          exact sound.completed.click (sound.pending mouseDown pending) left nothing
            onlyMore.no_click
        · intro other stillPending
          rw [idle] at stillPending
          cases stillPending

theorem Sound.elsewhere {state : State K V W} {app : MouseApp V W}
    (sound : Sound state.notes state.press)
    (undisturbed : self.Undisturbed refresh state (.elsewhere app)) :
    Sound (state.notes ++ watchDrag state.press state.app.others app) state.press := by
  apply sound.unchanged
  · exact (onlyDrags_watchDrag _ _ _).no_click
  · intro pending note member
    have quiet := undisturbed pending
    rw [watchDrag] at member
    split at member
    next starts =>
      rw [Bool.and_eq_true] at starts
      have none := quiet starts.1
      rw [Option.isNone_iff_eq_none] at none
      rw [none] at starts
      cases starts.2
    next => cases member

/-- What one step keeps. -/
theorem Sound.step {state next : State K V W} {label : Step K V W}
    (sound : Sound state.notes state.press) (undisturbed : self.Undisturbed refresh state label)
    (steps : self.step refresh state label = some next) : Sound next.notes next.press := by
  cases label with
  | dispatch input hovered front behind =>
      rw [Clickable.step] at steps
      rcases Option.bind_eq_some_iff.mp steps with ⟨⟨done, last⟩, dispatched, same⟩
      cases same
      cases input with
      | down event => exact sound.down undisturbed dispatched
      | move event => exact sound.move undisturbed dispatched
      | up event => exact sound.up undisturbed dispatched
  | elsewhere app =>
      cases steps
      exact sound.elsewhere undisturbed
  | paint dragListener =>
      cases steps
      exact ⟨rfl, sound.completed, sound.pending⟩

/-- In a run that never disturbs a press all clicks are completed presses, and no press is
clicked twice. -/
theorem clicksCompleted_of_undisturbed {app : MouseApp V W}
    {dragListener : Option (V × (V → Point K → MouseApp V W → MouseApp V W))}
    {steps : List (Step K V W)} {last : State K V W}
    (run : Run (self.step refresh) (self.Undisturbed refresh) (start app dragListener) steps
      last) :
    ClicksCompleted last.notes ∧
      ∀ front first between second back,
        last.notes = front ++ .click first :: (between ++ .click second :: back) →
          .event (.down second.down) true ∈ between ∧ second.down.button = .left := by
  have sound : Sound last.notes last.press := by
    apply run.invariant fun _ state => Sound state.notes state.press
    · constructor
      · rfl
      · exact clicksCompleted_nil
      · intro mouseDown pending
        cases pending
    · intro _ state label next sound undisturbed steps
      exact sound.step undisturbed steps
  refine ⟨sound.completed, ?_⟩
  intro front first between second back split
  exact ClicksCompleted.pressed_anew (split ▸ sound.completed)

/-! ## Runs -/

/-- A button of one click listener, which stops the propagation. -/
def button : Clickable ℚ Unit Unit where
  origin := ⟨0, 0⟩
  clickListeners := [fun _ app => { app with propagateEvent := false }]

def leftDown : MouseInput ℚ :=
  .down ⟨.left, ⟨1, 1⟩⟩

def leftUp : MouseInput ℚ :=
  .up ⟨.left, ⟨1, 1⟩⟩

def rightUp : MouseInput ℚ :=
  .up ⟨.right, ⟨9, 9⟩⟩

/-- The app of the button while a press is pending. -/
def pressedApp : MouseApp Unit (Press ℚ Unit Unit × Unit) :=
  ⟨none, true, (⟨some ⟨.left, ⟨1, 1⟩⟩, none, none⟩, ())⟩

theorem clicksCompleted_of_undisturbed_once :
    ∃ last, Run (button.step id) (button.Undisturbed id) (start ⟨none, true, ()⟩ none)
        [.dispatch leftDown true [] [], .dispatch leftUp true [] []] last ∧
      last.notes = [.event leftDown true, .received, .event leftUp true,
        .click ⟨⟨.left, ⟨1, 1⟩⟩, ⟨.left, ⟨1, 1⟩⟩⟩] ∧
      ClicksCompleted last.notes := by
  have goesDown : button.dispatch id leftDown true [] []
      (MouseApp.withPress ⟨none, true, ()⟩ ⟨none, none, none⟩) =
        some ([.received], pressedApp) := rfl
  have comesUp : button.dispatch id leftUp true [] [] pressedApp =
      some ([.click ⟨⟨.left, ⟨1, 1⟩⟩, ⟨.left, ⟨1, 1⟩⟩⟩],
        ⟨none, false, (⟨none, none, none⟩, ())⟩) := rfl
  have mayGoDown : button.Undisturbed id (start ⟨none, true, ()⟩ none)
      (.dispatch leftDown true [] []) := by
    constructor
    · intro _ done last dispatched held
      cases goesDown.symm.trans dispatched
      simp
    · intro pending
      cases pending
  have mayComeUp : button.Undisturbed id ⟨pressedApp, [.event leftDown true, .received]⟩
      (.dispatch leftUp true [] []) := by
    intro _
    apply (if_pos rfl).mpr
    intro _
    refine ⟨rfl, rfl, ?_⟩
    intro done last dispatched
    cases comesUp.symm.trans dispatched
    simp
  have run : Run (button.step id) (button.Undisturbed id) (start ⟨none, true, ()⟩ none)
      [.dispatch leftDown true [] [], .dispatch leftUp true [] []] _ :=
    (Run.nil.snoc mayGoDown rfl).snoc mayComeUp rfl
  exact ⟨_, run, rfl, (clicksCompleted_of_undisturbed run).1⟩

/-- A listener of something above the button stops the propagation of the mouse-up in the
bubble phase.  The press stays with the listener of the button and is fired by the next
mouse-up, which is of another mouse button and somewhere else. -/
theorem not_clicksCompleted :
    ∃ last, Run (button.step id) (fun _ _ => True) (start ⟨none, true, ()⟩ none)
        [.dispatch leftDown true [] [],
          .dispatch leftUp true []
            [fun phase app => some { app with propagateEvent := phase = .capture }],
          .dispatch rightUp false [] []] last ∧
      ¬ ClicksCompleted last.notes := by
  refine ⟨⟨⟨none, false, (⟨none, none, none⟩, ())⟩, [.event leftDown true, .received,
    .event leftUp true, .event rightUp false,
    .click ⟨⟨.left, ⟨1, 1⟩⟩, ⟨.right, ⟨9, 9⟩⟩⟩]⟩, Run.of_foldlM rfl, ?_⟩
  intro completed
  rcases completed [.event leftDown true, .received, .event leftUp true, .event rightUp false] _ []
    rfl with ⟨before, during, split, -, -, quiet⟩
  have last := congrArg List.getLast? split
  rcases List.eq_nil_or_concat during with rfl | ⟨rest, note, rfl⟩
  · rw [List.getLast?_concat] at last
    cases last
  · rw [List.concat_eq_append, ← List.cons_append, ← List.append_assoc,
      List.getLast?_concat] at last
    cases last
    have member : .event rightUp false ∈ rest.concat (.event rightUp false) := by
      rw [List.concat_eq_append]
      exact List.mem_append_right _ (List.mem_singleton_self _)
    exact (quiet _ member).2 trivial

end Clickable

end Gpui
