import Gpui.Library.Slots

/-!
# What is painted into a frame

Painting registers mouse listeners and input handlers with the next frame.  A cached view
(or a deferred draw) records between which of them its own are, and when it is reused for
the next frame, these are taken out of the rendered frame.

Within a cached view that is rendered nothing is reused, and a view is reused with all that
is within it; the ranges of a frame are those of its outermost cached views.
-/

namespace Gpui

open Library

variable {V M H : Type}

inductive FrameItem (M H : Type) where
  | mouseListener (listener : M)
  | inputHandler (handler : H)

inductive PaintItem (V M H : Type) where
  | paint (item : FrameItem M H)
  /-- A cached view that is rendered. -/
  | render (view : V) (items : List (FrameItem M H))
  | reuse (view : V)

/-- The view, if the item is cached. -/
def PaintItem.view? : PaintItem V M H → Option V
  | .paint _ => none
  | .render view _ => some view
  | .reuse view => some view

structure PaintIndex where
  mouseListenersIndex : Nat
  inputHandlersIndex : Nat
deriving DecidableEq, Repr

namespace PaintIndex

/-- Neither of the lists was longer. -/
def Before (first second : PaintIndex) : Prop :=
  first.mouseListenersIndex ≤ second.mouseListenersIndex ∧
    first.inputHandlersIndex ≤ second.inputHandlersIndex

theorem Before.refl (index : PaintIndex) : index.Before index :=
  ⟨le_refl _, le_refl _⟩

theorem Before.trans {first second third : PaintIndex} (front : first.Before second)
    (back : second.Before third) : first.Before third :=
  ⟨front.1.trans back.1, front.2.trans back.2⟩

end PaintIndex

structure PaintRange where
  start : PaintIndex
  stop : PaintIndex
deriving DecidableEq, Repr

/-- The handlers of a frame, and what its cached views have recorded. -/
structure FrameHandlers (V M H : Type) where
  mouseListeners : List (Option M)
  inputHandlers : List (Option H)
  paintRanges : V → Option PaintRange

namespace FrameHandlers

def new : FrameHandlers V M H where
  mouseListeners := []
  inputHandlers := []
  paintRanges := fun _ => none

def paintIndex (self : FrameHandlers V M H) : PaintIndex where
  mouseListenersIndex := self.mouseListeners.length
  inputHandlersIndex := self.inputHandlers.length

/-- `on_mouse_event` and `handle_input`. -/
def push (self : FrameHandlers V M H) : FrameItem M H → FrameHandlers V M H
  | .mouseListener listener =>
      { self with mouseListeners := self.mouseListeners ++ [some listener] }
  | .inputHandler handler => { self with inputHandlers := self.inputHandlers ++ [some handler] }

/-- The next frame and the rendered one, from which the range is taken. -/
def reusePaint (self rendered : FrameHandlers V M H) (range : PaintRange) :
    Option (FrameHandlers V M H × FrameHandlers V M H) := do
  let (handlers, inputHandlers) ← takeRange rendered.inputHandlers
    range.start.inputHandlersIndex range.stop.inputHandlersIndex
  let (listeners, mouseListeners) ← takeRange rendered.mouseListeners
    range.start.mouseListenersIndex range.stop.mouseListenersIndex
  return (
    { self with
      inputHandlers := self.inputHandlers ++ handlers
      mouseListeners := self.mouseListeners ++ listeners },
    { rendered with inputHandlers, mouseListeners })

variable [DecidableEq V]

/-- Record what has been painted since. -/
def record (self : FrameHandlers V M H) (view : V) (start : PaintIndex) : FrameHandlers V M H :=
  { self with
    paintRanges := Function.update self.paintRanges view (some ⟨start, self.paintIndex⟩) }

@[simp]
theorem record_paintRanges_self (self : FrameHandlers V M H) (view : V) (start : PaintIndex) :
    (self.record view start).paintRanges view = some ⟨start, self.paintIndex⟩ :=
  Function.update_self ..

@[simp]
theorem record_paintRanges_of_ne (self : FrameHandlers V M H) {view other : V}
    (start : PaintIndex) (differs : other ≠ view) :
    (self.record view start).paintRanges other = self.paintRanges other :=
  Function.update_of_ne differs ..

def paintItem (self rendered : FrameHandlers V M H) :
    PaintItem V M H → Option (FrameHandlers V M H × FrameHandlers V M H)
  | .paint item => some (self.push item, rendered)
  | .render view items => some ((items.foldl push self).record view self.paintIndex, rendered)
  | .reuse view => do
      let range ← rendered.paintRanges view
      let (next, rendered) ← self.reusePaint rendered range
      return (next.record view self.paintIndex, rendered)

def paint : List (PaintItem V M H) → FrameHandlers V M H → FrameHandlers V M H →
    Option (FrameHandlers V M H × FrameHandlers V M H)
  | [], self, rendered => some (self, rendered)
  | item :: items, self, rendered => do
      let (self, rendered) ← self.paintItem rendered item
      paint items self rendered

/-! ## What a frame has -/

/-- No handler is missing. -/
structure Whole (frame : FrameHandlers V M H) : Prop where
  mouseListeners : ∀ slot ∈ frame.mouseListeners, slot.isSome = true
  inputHandlers : ∀ slot ∈ frame.inputHandlers, slot.isSome = true

/-- The recorded ranges are of handlers of the frame, and those of different views do not
overlap. -/
structure Recorded (frame : FrameHandlers V M H) : Prop where
  inside : ∀ view range, frame.paintRanges view = some range →
    range.start.Before range.stop ∧ range.stop.Before frame.paintIndex
  apart : ∀ view other range otherRange, view ≠ other → frame.paintRanges view = some range →
    frame.paintRanges other = some otherRange →
    range.stop.Before otherRange.start ∨ otherRange.stop.Before range.start

/-- What a view has recorded is there to be taken. -/
def Available (self : FrameHandlers V M H) (range : PaintRange) : Prop :=
  Full self.inputHandlers range.start.inputHandlersIndex range.stop.inputHandlersIndex ∧
    Full self.mouseListeners range.start.mouseListenersIndex range.stop.mouseListenersIndex

/-- A cached view is drawn once in a frame, and reused if it was drawn in the frame before. -/
structure Reusable (rendered : FrameHandlers V M H) (items : List (PaintItem V M H)) : Prop where
  once : (items.filterMap PaintItem.view?).Nodup
  drawn : ∀ view, .reuse view ∈ items → (rendered.paintRanges view).isSome = true

omit [DecidableEq V] in
theorem Recorded.available {self : FrameHandlers V M H} (recorded : self.Recorded)
    (whole : self.Whole) {view : V} {range : PaintRange}
    (found : self.paintRanges view = some range) : self.Available range := by
  have inside := (recorded.inside view range found).2
  exact ⟨full_of_forall_isSome whole.inputHandlers inside.2 _,
    full_of_forall_isSome whole.mouseListeners inside.1 _⟩

/-! ## Painting -/

variable {self rendered : FrameHandlers V M H}

omit [DecidableEq V] in
theorem Whole.push (whole : self.Whole) (item : FrameItem M H) : (self.push item).Whole := by
  cases item with
  | mouseListener listener =>
      refine ⟨?_, whole.inputHandlers⟩
      intro slot member
      rcases List.mem_append.mp member with old | new
      · exact whole.mouseListeners slot old
      · rw [List.mem_singleton.mp new]
        rfl
  | inputHandler handler =>
      refine ⟨whole.mouseListeners, ?_⟩
      intro slot member
      rcases List.mem_append.mp member with old | new
      · exact whole.inputHandlers slot old
      · rw [List.mem_singleton.mp new]
        rfl

omit [DecidableEq V] in
theorem Whole.pushAll (whole : self.Whole) (items : List (FrameItem M H)) :
    (items.foldl FrameHandlers.push self).Whole := by
  induction items generalizing self with
  | nil => exact whole
  | cons item items ih => exact ih (whole.push item)

omit [DecidableEq V] in
/-- Painting makes the lists longer and records nothing by itself. -/
theorem push_grows (self : FrameHandlers V M H) (item : FrameItem M H) :
    self.paintIndex.Before (self.push item).paintIndex ∧
      (self.push item).paintRanges = self.paintRanges := by
  cases item with
  | mouseListener listener =>
      exact ⟨⟨by simp [push, paintIndex], le_refl _⟩, rfl⟩
  | inputHandler handler =>
      exact ⟨⟨le_refl _, by simp [push, paintIndex]⟩, rfl⟩

omit [DecidableEq V] in
theorem pushAll_grows (self : FrameHandlers V M H) (items : List (FrameItem M H)) :
    self.paintIndex.Before (items.foldl push self).paintIndex ∧
      (items.foldl push self).paintRanges = self.paintRanges := by
  induction items generalizing self with
  | nil => exact ⟨.refl _, rfl⟩
  | cons item items ih =>
      rcases self.push_grows item with ⟨longer, same⟩
      rcases ih (self.push item) with ⟨longerStill, sameStill⟩
      exact ⟨longer.trans longerStill, sameStill.trans same⟩

omit [DecidableEq V] in
theorem Recorded.of_grows {next : FrameHandlers V M H} (recorded : self.Recorded)
    (longer : self.paintIndex.Before next.paintIndex)
    (same : next.paintRanges = self.paintRanges) : next.Recorded where
  inside view range found := by
    rw [same] at found
    rcases recorded.inside view range found with ⟨ordered, inside⟩
    exact ⟨ordered, inside.trans longer⟩
  apart view other range otherRange differs found otherFound := by
    rw [same] at found otherFound
    exact recorded.apart view other range otherRange differs found otherFound

/-- What a view records comes after all that was recorded before. -/
theorem Recorded.record {next : FrameHandlers V M H} (recorded : self.Recorded)
    (longer : self.paintIndex.Before next.paintIndex)
    (same : next.paintRanges = self.paintRanges) (view : V) :
    (next.record view self.paintIndex).Recorded := by
  have after (other : V) (range : PaintRange) (differs : other ≠ view)
      (found : (next.record view self.paintIndex).paintRanges other = some range) :
      self.paintRanges other = some range := by
    rwa [record_paintRanges_of_ne _ _ differs, same] at found
  have own (range : PaintRange)
      (found : (next.record view self.paintIndex).paintRanges view = some range) :
      range = ⟨self.paintIndex, next.paintIndex⟩ := by
    rw [record_paintRanges_self] at found
    exact (Option.some.inj found).symm
  constructor
  · intro other range found
    by_cases isView : other = view
    · subst isView
      rw [own range found]
      exact ⟨longer, .refl _⟩
    · rcases recorded.inside other range (after other range isView found) with ⟨ordered, inside⟩
      exact ⟨ordered, inside.trans longer⟩
  · intro first second range otherRange differs found otherFound
    by_cases isFirst : first = view
    · subst isFirst
      rw [own range found]
      exact Or.inr (recorded.inside second otherRange
        (after second otherRange (Ne.symm differs) otherFound)).2
    · have foundBefore := after first range isFirst found
      by_cases isSecond : second = view
      · subst isSecond
        rw [own otherRange otherFound]
        exact Or.inl (recorded.inside first range foundBefore).2
      · exact recorded.apart first second range otherRange differs foundBefore
          (after second otherRange isSecond otherFound)

omit [DecidableEq V] in
/-- What is available is found and taken; what is apart from it stays available. -/
theorem reusePaint_of_available {range : PaintRange} (whole : self.Whole)
    (ordered : range.start.Before range.stop) (available : rendered.Available range) :
    ∃ next rest, self.reusePaint rendered range = some (next, rest) ∧ next.Whole ∧
      self.paintIndex.Before next.paintIndex ∧ next.paintRanges = self.paintRanges ∧
      rest.paintRanges = rendered.paintRanges ∧
      ∀ other : PaintRange, range.stop.Before other.start ∨ other.stop.Before range.start →
        rendered.Available other → rest.Available other := by
  rcases takeRange_of_full ordered.2 available.1 with
    ⟨handlers, inputHandlers, takesHandlers, handlersThere, handlersLeft⟩
  rcases takeRange_of_full ordered.1 available.2 with
    ⟨listeners, mouseListeners, takesListeners, listenersThere, listenersLeft⟩
  have reuses : self.reusePaint rendered range = some (
      { self with
        inputHandlers := self.inputHandlers ++ handlers
        mouseListeners := self.mouseListeners ++ listeners },
      { rendered with inputHandlers, mouseListeners }) := by
    rw [reusePaint, takesHandlers, takesListeners]
    rfl
  refine ⟨_, _, reuses, ?_, ?_, rfl, rfl, ?_⟩
  · constructor
    · intro slot member
      exact (List.mem_append.mp member).elim (whole.mouseListeners slot) (listenersThere slot)
    · intro slot member
      exact (List.mem_append.mp member).elim (whole.inputHandlers slot) (handlersThere slot)
  · constructor
    · simp [paintIndex]
    · simp [paintIndex]
  · intro other apart there
    constructor
    · exact handlersLeft _ _ (apart.imp And.right And.right) there.1
    · exact listenersLeft _ _ (apart.imp And.left And.left) there.2

/-- Painting finds all that it reuses, if that was recorded for the rendered frame and is
there. -/
theorem paint_finds {old : FrameHandlers V M H} (recordedOld : old.Recorded)
    {items : List (PaintItem V M H)} (reusable : old.Reusable items) (whole : self.Whole)
    (recorded : self.Recorded) (same : rendered.paintRanges = old.paintRanges)
    (available : ∀ view range, .reuse view ∈ items → old.paintRanges view = some range →
      rendered.Available range) :
    ∃ next rest, paint items self rendered = some (next, rest) ∧ next.Whole ∧ next.Recorded := by
  induction items generalizing self rendered with
  | nil => exact ⟨self, rendered, rfl, whole, recorded⟩
  | cons item items ih =>
      have later : old.Reusable items := by
        constructor
        · exact reusable.once.sublist ((List.sublist_cons_self item items).filterMap _)
        · exact fun view member => reusable.drawn view (List.mem_cons_of_mem _ member)
      have availableLater (view : V) (range : PaintRange) (member : .reuse view ∈ items) :=
        available view range (List.mem_cons_of_mem _ member)
      cases item with
      | paint item =>
          rcases self.push_grows item with ⟨longer, unrecorded⟩
          exact ih later (whole.push item) (recorded.of_grows longer unrecorded) same availableLater
      | render view drawn =>
          rcases self.pushAll_grows drawn with ⟨longer, unrecorded⟩
          have drawnWhole := whole.pushAll drawn
          exact ih later ⟨drawnWhole.mouseListeners, drawnWhole.inputHandlers⟩
            (recorded.record longer unrecorded view) same availableLater
      | reuse view =>
          rcases Option.isSome_iff_exists.mp (reusable.drawn view List.mem_cons_self) with
            ⟨range, found⟩
          rcases reusePaint_of_available whole (recordedOld.inside view range found).1
            (available view range List.mem_cons_self found) with
            ⟨next, rest, reuses, nextWhole, longer, unrecorded, sameRest, left⟩
          have othersLeft (other : V) (otherRange : PaintRange) (member : .reuse other ∈ items)
              (otherFound : old.paintRanges other = some otherRange) :
              rest.Available otherRange := by
            apply left otherRange _ (availableLater other otherRange member otherFound)
            apply recordedOld.apart view other range otherRange _ found otherFound
            rintro rfl
            -- The view would be drawn twice.
            exact (List.nodup_cons.mp reusable.once).1
              (List.mem_filterMap.mpr ⟨.reuse view, member, rfl⟩)
          have recordedWhole : (next.record view self.paintIndex).Whole :=
            ⟨nextWhole.mouseListeners, nextWhole.inputHandlers⟩
          rcases ih later recordedWhole (recorded.record longer unrecorded view)
            (sameRest.trans same) othersLeft with
            ⟨last, lastRest, paints, lastWhole, lastRecorded⟩
          refine ⟨last, lastRest, ?_, lastWhole, lastRecorded⟩
          rw [paint, paintItem, same, found]
          simp only [Option.bind_eq_bind, Option.bind_some, reuses]
          exact paints

end FrameHandlers

end Gpui
