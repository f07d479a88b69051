import Gpui.App.Effects

/-!
# Frames that are due

A change of a view marks the windows that show it, unless they are drawing.  A window that is
marked is drawn at the next request for a frame, and what was drawn is presented then; input may
draw it earlier, without presenting it.  A view that is not marked may keep what it drew in the
frame before.

One window is shown.  What a view draws is the number of changes made to it by then.  The views
that `invalidate_entities` marks above the notified ones are given with each draw; those that
are reused are not among the marked ones.
-/

namespace Gpui

open Gpui.Library

variable {V : Type}

structure FrameWindow (V : Type) where
  invalidator : WindowInvalidator V
  /-- The views for which the window is in `window_invalidators_by_entity`. -/
  tracked : V → Bool
  refreshing : Bool
  needsPresent : Bool
  /-- The draw is part of a request for a frame, which presents it. -/
  requested : Bool
  dirtyViews : V → Bool
  content : V → Nat
  nextFrame : V → Option Nat
  renderedFrame : V → Option Nat
  /-- The frame that was presented last. -/
  presented : V → Option Nat
  /-- Whether the last change of a view was made while the window was drawing. -/
  late : V → Bool

structure RequestFrameOptions where
  requirePresentation : Bool
  forceRender : Bool
  /-- There was input within the last second. -/
  recentInput : Bool
  /-- The frame trace holds this frame back. -/
  diagnosticHold : Bool

inductive FrameEvent (V : Type) where
  /-- A view changes and is notified. -/
  | notify (view : V)
  | refresh
  | requestFrame (options : RequestFrameOptions) (above : V → Bool)
  /-- A draw for an input event, or the first one. -/
  | draw (above : V → Bool)
  | renderView (view : V)
  | reuseView (view : V)
  | beginPaint
  | swapFrames
  /-- The end of the draw, with the entities that were read besides the views. -/
  | endDraw (accessed : V → Bool) (diagnosticHold : Bool)

namespace FrameWindow

def new : FrameWindow V where
  invalidator := { dirty := true, drawPhase := .none, dirtyViews := fun _ => false }
  tracked _ := false
  refreshing := false
  needsPresent := false
  requested := false
  dirtyViews _ := false
  content _ := 0
  nextFrame _ := none
  renderedFrame _ := none
  presented _ := none
  late _ := false

def phase (self : FrameWindow V) : DrawPhase :=
  self.invalidator.drawPhase

def setPhase (self : FrameWindow V) (phase : DrawPhase) : FrameWindow V :=
  { self with invalidator := { self.invalidator with drawPhase := phase } }

def refresh (self : FrameWindow V) : FrameWindow V :=
  if self.phase = .none then
    { self with refreshing := true, invalidator := { self.invalidator with dirty := true } }
  else self

def present (self : FrameWindow V) (diagnosticHold : Bool) : FrameWindow V :=
  if diagnosticHold then { self with needsPresent := true }
  else { self with presented := self.renderedFrame, needsPresent := false }

/-- `draw` up to where the roots are drawn. -/
def beginDraw (self : FrameWindow V) (requested : Bool) (above : V → Bool) : FrameWindow V :=
  { self with
    requested
    dirtyViews := fun view => self.invalidator.dirtyViews view || above view
    nextFrame := fun _ => none
    invalidator := { dirty := false, drawPhase := .prepaint, dirtyViews := fun _ => false } }

def requestFrame (self : FrameWindow V) (options : RequestFrameOptions) (above : V → Bool) :
    FrameWindow V :=
  let needsPresent := options.requirePresentation || self.needsPresent || options.recentInput
  if self.invalidator.dirty || options.forceRender then self.beginDraw true above
  else if needsPresent then self.present options.diagnosticHold
  else self

/-- The roots are drawn in the phases for prepainting and painting. -/
def drawing (self : FrameWindow V) : Bool :=
  self.phase = .prepaint ∨ self.phase = .paint

/-- The frames change places; what follows may change the focus. -/
def swapFrames (self : FrameWindow V) : FrameWindow V :=
  { self with
    dirtyViews := fun _ => false
    renderedFrame := self.nextFrame
    nextFrame := fun _ => none }.setPhase .focus

def endDraw (self : FrameWindow V) (accessed : V → Bool) (diagnosticHold : Bool) :
    FrameWindow V :=
  let self :=
    { self with
      tracked := fun view => (self.renderedFrame view).isSome || accessed view
      refreshing := false
      needsPresent := true }.setPhase .none
  if self.requested then self.present diagnosticHold else self

section Step

variable [DecidableEq V]

def invalidateView (self : FrameWindow V) (view : V) : FrameWindow V :=
  { self with
    invalidator :=
      { self.invalidator with
        dirty := self.invalidator.dirty || decide (self.phase = DrawPhase.none)
        dirtyViews := Function.update self.invalidator.dirtyViews view true } }

def notify (self : FrameWindow V) (view : V) : FrameWindow V :=
  let self :=
    { self with
      content := Function.update self.content view (self.content view + 1)
      late := Function.update self.late view (decide (self.phase ≠ DrawPhase.none)) }
  if self.tracked view then self.invalidateView view else self

def step (self : FrameWindow V) : FrameEvent V → Option (FrameWindow V)
  | .notify view => some (self.notify view)
  | .refresh => some self.refresh
  | .requestFrame options above =>
      if self.phase = .none then some (self.requestFrame options above) else none
  | .draw above => if self.phase = .none then some (self.beginDraw false above) else none
  | .renderView view =>
      if self.drawing then
        some { self with
          nextFrame := Function.update self.nextFrame view (some (self.content view)) }
      else none
  | .reuseView view =>
      if self.drawing ∧ self.dirtyViews view = false ∧ self.refreshing = false then
        some { self with
          nextFrame := Function.update self.nextFrame view (self.renderedFrame view) }
      else none
  | .beginPaint => if self.phase = .prepaint then some (self.setPhase .paint) else none
  | .swapFrames => if self.drawing then some self.swapFrames else none
  | .endDraw accessed diagnosticHold =>
      if self.phase = .focus then some (self.endDraw accessed diagnosticHold) else none

end Step

/-! ## What is shown -/

/-- The view will be drawn anew: at the next request for a frame, or by the draw under way. -/
def Due (self : FrameWindow V) (view : V) : Prop :=
  match self.phase with
  | .none =>
      self.invalidator.dirty = true ∧
        (self.invalidator.dirtyViews view = true ∨ self.refreshing = true)
  | .focus => False
  | _ => self.dirtyViews view = true ∨ self.refreshing = true

/-- What a frame shows of a view is as it is now, or it changed during a draw. -/
def Current (self : FrameWindow V) (frame : V → Option Nat) (view : V) : Prop :=
  ∀ version, frame view = some version → version = self.content view ∨ self.late view = true

structure Scheduled (window : FrameWindow V) : Prop where
  rendered : ∀ view, window.Due view ∨ window.Current window.renderedFrame view
  next : window.drawing = true → ∀ view, window.Current window.nextFrame view
  tracked : window.phase ≠ .focus → ∀ view, window.renderedFrame view ≠ none →
    window.tracked view = true
  presented : window.phase ≠ .focus →
    window.needsPresent = true ∨ window.presented = window.renderedFrame

namespace Scheduled

variable {window next : FrameWindow V} {view : V}

theorem new : Scheduled (new : FrameWindow V) where
  rendered _ := Or.inr nofun
  next := nofun
  tracked _ _ some := absurd rfl some
  presented _ := Or.inr rfl

theorem refresh (scheduled : Scheduled window) : Scheduled window.refresh := by
  unfold FrameWindow.refresh
  split
  · rename_i idle
    exact
      { rendered := by
          intro view
          left
          have due : ({ window with
              refreshing := true
              invalidator := { window.invalidator with dirty := true } }).Due view := by
            simp only [phase] at idle
            simp [Due, phase, idle]
          exact due
        next := scheduled.next
        tracked := scheduled.tracked
        presented := scheduled.presented }
  · exact scheduled

theorem present (scheduled : Scheduled window) (diagnosticHold : Bool) :
    Scheduled (window.present diagnosticHold) := by
  unfold FrameWindow.present
  split
  · exact { scheduled with presented := fun _ => Or.inl rfl }
  · exact { scheduled with presented := fun _ => Or.inr rfl }

theorem beginDraw (scheduled : Scheduled window) (idle : window.phase = .none)
    (requested : Bool) (above : V → Bool) : Scheduled (window.beginDraw requested above) where
  rendered view := by
    rcases scheduled.rendered view with due | current
    · left
      simp only [Due, idle] at due
      rcases due.2 with notified | refreshing
      · exact Or.inl (by simp [FrameWindow.beginDraw, notified])
      · exact Or.inr refreshing
    · exact Or.inr current
  next _ _ := nofun
  tracked _ := scheduled.tracked (by rw [idle]; nofun)
  presented _ := scheduled.presented (by rw [idle]; nofun)

theorem requestFrame (scheduled : Scheduled window) (idle : window.phase = .none)
    (options : RequestFrameOptions) (above : V → Bool) :
    Scheduled (window.requestFrame options above) := by
  simp only [FrameWindow.requestFrame]
  split
  · exact scheduled.beginDraw idle true above
  · split
    · exact scheduled.present options.diagnosticHold
    · exact scheduled

theorem beginPaint (scheduled : Scheduled window) (prepaint : window.phase = .prepaint) :
    Scheduled (window.setPhase .paint) where
  rendered view := by
    rcases scheduled.rendered view with due | current
    · left
      simp only [Due, prepaint] at due
      exact due
    · exact Or.inr current
  next _ := scheduled.next (by simp [drawing, prepaint])
  tracked _ := scheduled.tracked (by rw [prepaint]; nofun)
  presented _ := scheduled.presented (by rw [prepaint]; nofun)

theorem swapFrames (scheduled : Scheduled window) (drawing : window.drawing = true) :
    Scheduled window.swapFrames where
  rendered view := Or.inr (scheduled.next drawing view)
  next := nofun
  tracked focus := absurd rfl focus
  presented focus := absurd rfl focus

theorem endDraw (scheduled : Scheduled window) (focus : window.phase = .focus)
    (accessed : V → Bool) (diagnosticHold : Bool) :
    Scheduled (window.endDraw accessed diagnosticHold) := by
  have ended : Scheduled ({ window with
      tracked := fun view => (window.renderedFrame view).isSome || accessed view
      refreshing := false
      needsPresent := true }.setPhase .none) :=
    { rendered := by
        intro view
        rcases scheduled.rendered view with due | current
        · simp only [Due, focus] at due
        · exact Or.inr current
      next := nofun
      tracked := by
        intro _ view shown
        have isShown : (window.renderedFrame view).isSome = true :=
          Option.isSome_iff_ne_none.mpr shown
        change ((window.renderedFrame view).isSome || accessed view) = true
        rw [isShown, Bool.true_or]
      presented := fun _ => Or.inl rfl }
  simp only [FrameWindow.endDraw]
  split
  · exact ended.present diagnosticHold
  · exact ended

/-- A view that is due is not reused. -/
theorem current_of_reused (scheduled : Scheduled window) (drawing : window.drawing = true)
    (clean : window.dirtyViews view = false) (keeps : window.refreshing = false) :
    window.Current window.renderedFrame view := by
  rcases scheduled.rendered view with due | current
  · simp only [FrameWindow.drawing, decide_eq_true_eq] at drawing
    rcases drawing with prepaint | paint
    · simp [Due, prepaint, clean, keeps] at due
    · simp [Due, paint, clean, keeps] at due
  · exact current

section Step

variable [DecidableEq V]

/-- A frame may take up what is current. -/
theorem showView (scheduled : Scheduled window) {shown : Option Nat}
    (current : ∀ version, shown = some version →
      version = window.content view ∨ window.late view = true) :
    Scheduled { window with nextFrame := Function.update window.nextFrame view shown } where
  rendered := scheduled.rendered
  next drawing other version isShown := by
    change Function.update window.nextFrame view shown other = some version at isShown
    by_cases same : other = view
    · subst same
      rw [Function.update_self] at isShown
      exact current version isShown
    · rw [Function.update_of_ne same] at isShown
      exact scheduled.next drawing other version isShown
  tracked := scheduled.tracked
  presented := scheduled.presented

theorem notify_due {shown : V} (due : window.Due shown) (view : V) :
    (window.notify view).Due shown := by
  simp only [FrameWindow.notify]
  split
  · cases inPhase : window.phase with
    | none =>
        simp only [Due, inPhase] at due
        simp only [phase] at inPhase
        by_cases same : shown = view
        · subst same
          simp [Due, phase, invalidateView, inPhase]
        · simpa [Due, phase, invalidateView, inPhase, Function.update_of_ne same] using due.2
    | focus => simp only [Due, inPhase] at due
    | prepaint =>
        simp only [Due, inPhase] at due
        simp only [phase] at inPhase
        simpa [Due, phase, invalidateView, inPhase] using due
    | paint =>
        simp only [Due, inPhase] at due
        simp only [phase] at inPhase
        simpa [Due, phase, invalidateView, inPhase] using due
  · exact due

/-- A change during a draw is late, and leaves what other views show as current as it was. -/
theorem notify_current {frame : V → Option Nat} {shown : V}
    (current : window.Current frame shown) (view : V)
    (changed : shown = view → window.phase ≠ .none ∨ frame view = none) :
    (window.notify view).Current frame shown := by
  intro version isShown
  by_cases same : shown = view
  · subst same
    rcases changed rfl with drawing | unseen
    · right
      simp only [FrameWindow.notify]
      split
      · simpa [invalidateView] using drawing
      · simpa using drawing
    · rw [unseen] at isShown
      cases isShown
  · have before := current version isShown
    simp only [FrameWindow.notify]
    split
    · simpa only [invalidateView, Function.update_of_ne same] using before
    · simpa only [Function.update_of_ne same] using before

theorem notify_frames (window : FrameWindow V) (view : V) :
    (window.notify view).phase = window.phase ∧
      (window.notify view).drawing = window.drawing ∧
        (window.notify view).renderedFrame = window.renderedFrame ∧
          (window.notify view).nextFrame = window.nextFrame ∧
            (window.notify view).tracked = window.tracked ∧
              (window.notify view).needsPresent = window.needsPresent ∧
                (window.notify view).presented = window.presented := by
  simp only [FrameWindow.notify]
  split
  · exact ⟨rfl, rfl, rfl, rfl, rfl, rfl, rfl⟩
  · exact ⟨rfl, rfl, rfl, rfl, rfl, rfl, rfl⟩

/-- A view of the rendered frame is tracked, so its change makes it due. -/
theorem notify (scheduled : Scheduled window) (view : V) : Scheduled (window.notify view) := by
  rcases notify_frames window view with
    ⟨samePhase, sameDrawing, rendered, next, tracked, needsPresent, presented⟩
  constructor
  case rendered =>
    intro shown
    rcases scheduled.rendered shown with due | current
    · exact Or.inl (notify_due due view)
    · rw [rendered]
      by_cases idle : window.phase = .none
      · by_cases changed : shown = view ∧ window.renderedFrame view ≠ none
        · rcases changed with ⟨rfl, isShown⟩
          left
          have isTracked := scheduled.tracked (by rw [idle]; nofun) shown isShown
          simp only [phase] at idle
          simp [Due, FrameWindow.notify, isTracked, invalidateView, phase, idle]
        · right
          apply notify_current current
          intro same
          right
          by_contra isShown
          exact changed ⟨same, isShown⟩
      · exact Or.inr (notify_current current view fun _ => Or.inl idle)
  case next =>
    intro drawing shown
    rw [sameDrawing] at drawing
    rw [next]
    apply notify_current (scheduled.next drawing shown)
    intro _
    left
    simp only [FrameWindow.drawing, decide_eq_true_eq] at drawing
    rcases drawing with prepaint | paint
    · rw [prepaint]
      nofun
    · rw [paint]
      nofun
  case tracked =>
    rw [samePhase, rendered, tracked]
    exact scheduled.tracked
  case presented =>
    rw [samePhase, rendered, needsPresent, presented]
    exact scheduled.presented

theorem step (scheduled : Scheduled window) {event : FrameEvent V}
    (stepped : window.step event = some next) : Scheduled next := by
  cases event with
  | notify view =>
      obtain rfl := Option.some.inj stepped
      exact scheduled.notify view
  | refresh =>
      obtain rfl := Option.some.inj stepped
      exact scheduled.refresh
  | requestFrame options above =>
      rcases Option.ite_none_right_eq_some.mp stepped with ⟨idle, ⟨⟩⟩
      exact scheduled.requestFrame idle options above
  | draw above =>
      rcases Option.ite_none_right_eq_some.mp stepped with ⟨idle, ⟨⟩⟩
      exact scheduled.beginDraw idle false above
  | renderView view =>
      rcases Option.ite_none_right_eq_some.mp stepped with ⟨-, ⟨⟩⟩
      exact scheduled.showView fun _ same => Or.inl (Option.some.inj same).symm
  | reuseView view =>
      rcases Option.ite_none_right_eq_some.mp stepped with ⟨reuses, ⟨⟩⟩
      exact scheduled.showView
        (scheduled.current_of_reused reuses.1 reuses.2.1 reuses.2.2)
  | beginPaint =>
      rcases Option.ite_none_right_eq_some.mp stepped with ⟨prepaint, ⟨⟩⟩
      exact scheduled.beginPaint prepaint
  | swapFrames =>
      rcases Option.ite_none_right_eq_some.mp stepped with ⟨drawing, ⟨⟩⟩
      exact scheduled.swapFrames drawing
  | endDraw accessed diagnosticHold =>
      rcases Option.ite_none_right_eq_some.mp stepped with ⟨focus, ⟨⟩⟩
      exact scheduled.endDraw focus accessed diagnosticHold

end Step

end Scheduled

section Step

variable [DecidableEq V]

end Step

end FrameWindow

end Gpui
