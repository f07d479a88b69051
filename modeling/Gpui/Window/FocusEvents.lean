import Gpui.Dispatch.Frames

/-!
# Focus events

A draw compares the focus path of the frame it has drawn with that of the frame before,
which it reads once more from that frame's tree, and tells the focus listeners when the
paths or the activation of the window differ.  Reuse takes listeners out of the older tree
and nothing else, so what is read there is what was read when that frame was drawn.

Focus and activation may change at any time, also during a draw.  Listeners do not draw.
-/

namespace Gpui

open Library

variable {L : Type}

/-! ## Focus paths -/

namespace DispatchTree

/-- The focus ids from the root to the node that was given this one. -/
def focusPath (self : DispatchTree L) (focusId : FocusId) : Option (List FocusId) := do
  let path ← self.ancestry (self.nodes.length + 1) (self.focusableNodeIds focusId)
  return (path.filterMap fun nodeId => self.nodes[nodeId]?.bind DispatchNode.focusId).reverse

theorem getElem?_takeListeners (self : DispatchTree L) (start stop nodeId : Nat) :
    (self.takeListeners start stop).nodes[nodeId]? =
      self.nodes[nodeId]?.map fun node =>
        if start ≤ nodeId ∧ nodeId < stop then node.taken else node := by
  rw [takeListeners, List.getElem?_mapIdx]

theorem ancestry_takeListeners (self : DispatchTree L) (start stop rounds : Nat)
    (nodeId : Option DispatchNodeId) :
    (self.takeListeners start stop).ancestry rounds nodeId = self.ancestry rounds nodeId := by
  induction rounds generalizing nodeId with
  | zero =>
      cases nodeId with
      | none => rfl
      | some nodeId => rfl
  | succ rounds ih =>
      cases nodeId with
      | none => rfl
      | some nodeId =>
          rw [ancestry, ancestry, getElem?_takeListeners]
          cases self.nodes[nodeId]? with
          | none => rfl
          | some node =>
              have sameParent : (if start ≤ nodeId ∧ nodeId < stop then node.taken
                  else node).parent = node.parent := by
                split <;> rfl
              simp only [Option.map_some, Option.bind_eq_bind, Option.bind_some, ih, sameParent]

/-- Reuse leaves the focus paths of the tree it takes from. -/
theorem focusPath_takeListeners (self : DispatchTree L) (start stop : Nat) (focusId : FocusId) :
    (self.takeListeners start stop).focusPath focusId = self.focusPath focusId := by
  have sameFocus (nodeId : DispatchNodeId) :
      (self.takeListeners start stop).nodes[nodeId]?.bind DispatchNode.focusId =
        self.nodes[nodeId]?.bind DispatchNode.focusId := by
    rw [getElem?_takeListeners]
    cases self.nodes[nodeId]? with
    | none => rfl
    | some node =>
        rw [Option.map_some, Option.bind_some, Option.bind_some]
        split <;> rfl
  have sameLength : (self.takeListeners start stop).nodes.length = self.nodes.length :=
    List.length_mapIdx
  rw [focusPath, focusPath, ancestry_takeListeners, sameLength]
  simp only [sameFocus]
  rfl

theorem reuseSubtree_source {self source reached rest : DispatchTree L} {start stop : Nat}
    {focus : Option FocusId} {reused : ReusedSubtree}
    (reuses : self.reuseSubtree source start stop focus = some (reused, reached, rest)) :
    rest = source.takeListeners start stop := by
  rw [reuseSubtree] at reuses
  rcases Option.bind_eq_some_iff.mp reuses with ⟨⟨stack, walked⟩, _, reuses⟩
  rcases Option.bind_eq_some_iff.mp reuses with ⟨⟨left, closed⟩, _, same⟩
  rcases Option.some.inj same with ⟨⟩
  rfl

end DispatchTree

/-! ## Windows -/

/-- What focus needs of a frame. -/
structure FocusFrame (L : Type) where
  dispatchTree : DispatchTree L
  focus : Option FocusId
  windowActive : Bool

namespace FocusFrame

def new : FocusFrame L where
  dispatchTree := .new
  focus := none
  windowActive := false

/-- `clear`, which leaves whether the window was active. -/
def clear (self : FocusFrame L) : FocusFrame L :=
  { self with dispatchTree := .new, focus := none }

def focusPath (self : FocusFrame L) : Option (List FocusId) :=
  match self.focus with
  | some focusId => self.dispatchTree.focusPath focusId
  | none => some []

theorem focusPath_takeListeners (self : FocusFrame L) (start stop : Nat) :
    ({ self with dispatchTree := self.dispatchTree.takeListeners start stop } :
        FocusFrame L).focusPath = self.focusPath := by
  rw [focusPath, focusPath]
  cases self.focus with
  | none => rfl
  | some focusId => exact self.dispatchTree.focusPath_takeListeners start stop focusId

end FocusFrame

structure WindowFocusEvent where
  previousFocusPath : List FocusId
  currentFocusPath : List FocusId
deriving DecidableEq, Repr

inductive FocusChange where
  | focusIn
  | focusOut
deriving DecidableEq, Repr

namespace WindowFocusEvent

def isFocusIn (self : WindowFocusEvent) (focusId : FocusId) : Bool :=
  !self.previousFocusPath.contains focusId && self.currentFocusPath.contains focusId

def isFocusOut (self : WindowFocusEvent) (focusId : FocusId) : Bool :=
  self.previousFocusPath.contains focusId && !self.currentFocusPath.contains focusId

/-- What the event means for a focus id. -/
def change (self : WindowFocusEvent) (focusId : FocusId) : Option FocusChange :=
  if self.isFocusIn focusId then some .focusIn
  else if self.isFocusOut focusId then some .focusOut
  else none

end WindowFocusEvent

/-- What a draw has told the listeners, and the focus path of the frame drawn. -/
structure FocusDraw where
  focusPath : List FocusId
  /-- Whether the focus lost listeners are called. -/
  focusLost : Bool
  event : Option WindowFocusEvent
deriving DecidableEq, Repr

/-- The end of a draw, from where it has both paths. -/
def announceFocus (previousFocusPath currentFocusPath : List FocusId)
    (previousWindowActive currentWindowActive : Bool) : FocusDraw :=
  if previousFocusPath ≠ currentFocusPath ∨ previousWindowActive ≠ currentWindowActive then
    { focusPath := currentFocusPath
      focusLost := !previousFocusPath.isEmpty && currentFocusPath.isEmpty
      event := some
        { previousFocusPath := if previousWindowActive then previousFocusPath else []
          currentFocusPath := if currentWindowActive then currentFocusPath else [] } }
  else { focusPath := currentFocusPath, focusLost := false, event := none }

structure FocusWindow (L : Type) where
  renderedFrame : FocusFrame L
  nextFrame : FocusFrame L
  focus : Option FocusId
  active : Bool
  drawing : Bool
  /-- The draws so far, which no code reads. -/
  draws : List FocusDraw

inductive FocusWindowEvent (L : Type) where
  /-- `Window::focus` or `Window::blur`. -/
  | focus (focus : Option FocusId)
  | activate (active : Bool)
  | beginDraw
  /-- A call on the tree of the next frame. -/
  | build (event : FrameTreeEvent L)
  | setFocusHandle (focusId : FocusId)
  | reusePrepaint (start stop : Nat)
  | finishDraw

namespace FocusWindow

def new : FocusWindow L where
  renderedFrame := .new
  nextFrame := .new
  focus := none
  active := false
  drawing := false
  draws := []

/-- Put the tree of the next frame. -/
def withTree (self : FocusWindow L) (dispatchTree : DispatchTree L) : FocusWindow L :=
  { self with nextFrame := { self.nextFrame with dispatchTree } }

def setFocusHandle (self : FocusWindow L) (focusId : FocusId) : Option (FocusWindow L) := do
  let nextFrame :=
    if self.focus = some focusId then { self.nextFrame with focus := some focusId }
    else self.nextFrame
  let dispatchTree ← nextFrame.dispatchTree.setFocusId focusId
  return { self with nextFrame := { nextFrame with dispatchTree } }

def reusePrepaint (self : FocusWindow L) (start stop : Nat) : Option (FocusWindow L) := do
  let (reused, dispatchTree, source) ←
    self.nextFrame.dispatchTree.reuseSubtree self.renderedFrame.dispatchTree start stop self.focus
  return { self with
    renderedFrame := { self.renderedFrame with dispatchTree := source }
    nextFrame := { self.nextFrame with
      dispatchTree
      focus := if reused.containsFocus then self.focus else self.nextFrame.focus } }

def finishDraw (self : FocusWindow L) : Option (FocusWindow L) := do
  let nextFrame := { self.nextFrame with windowActive := self.active }
  let previousFocusPath ← self.renderedFrame.focusPath
  let currentFocusPath ← nextFrame.focusPath
  return { self with
    renderedFrame := nextFrame
    nextFrame := self.renderedFrame.clear
    drawing := false
    draws := self.draws ++ [announceFocus previousFocusPath currentFocusPath
      self.renderedFrame.windowActive nextFrame.windowActive] }

def step (self : FocusWindow L) : FocusWindowEvent L → Option (FocusWindow L)
  | .focus focus => some { self with focus }
  | .activate active => some { self with active }
  | .beginDraw => if self.drawing then none else some { self with drawing := true }
  | .build event =>
      if self.drawing then (self.nextFrame.dispatchTree.frameStep event).map self.withTree
      else none
  | .setFocusHandle focusId => if self.drawing then self.setFocusHandle focusId else none
  | .reusePrepaint start stop => if self.drawing then self.reusePrepaint start stop else none
  | .finishDraw => if self.drawing then self.finishDraw else none

/-- The changes for a focus id that the events so far have told. -/
def changes (self : FocusWindow L) (focusId : FocusId) : List FocusChange :=
  self.draws.filterMap fun draw => draw.event.bind fun event => event.change focusId

end FocusWindow

/-- Focus is lost by the draws whose path is empty after one that is not. -/
def FocusLostExactly : List FocusId → List FocusDraw → Prop
  | _, [] => True
  | before, draw :: draws =>
      (draw.focusLost = true ↔ before ≠ [] ∧ draw.focusPath = []) ∧
        FocusLostExactly draw.focusPath draws

/-- The focus changes of every id alternate, beginning with a focus-in; the last is a
focus-in if the frame drawn was active and has the id on its focus path; and focus is lost
where the path becomes empty. -/
structure FocusBalanced (window : FocusWindow L) : Prop where
  begins : ∀ focusId, (window.changes focusId).head? ≠ some .focusOut
  alternates : ∀ focusId, (window.changes focusId).IsChain (· ≠ ·)
  inForce : ∀ focusId, (window.changes focusId).getLast? = some .focusIn ↔
    window.renderedFrame.windowActive = true ∧
      ∃ path, window.renderedFrame.focusPath = some path ∧ focusId ∈ path
  lost : FocusLostExactly [] window.draws

/-! ## One event -/

/-- A path, if the window was active. -/
def shownPath (windowActive : Bool) (focusPath : List FocusId) : List FocusId :=
  if windowActive then focusPath else []

theorem mem_shownPath {windowActive : Bool} {focusPath : List FocusId} {focusId : FocusId} :
    focusId ∈ shownPath windowActive focusPath ↔ windowActive = true ∧ focusId ∈ focusPath := by
  cases windowActive with
  | true => simp [shownPath]
  | false => simp [shownPath]

/-- What a draw means for a focus id. -/
theorem change_announceFocus (before after : List FocusId) (wasActive isActive : Bool)
    (focusId : FocusId) :
    ((announceFocus before after wasActive isActive).event.bind fun event =>
        event.change focusId) =
      if focusId ∈ shownPath wasActive before then
        if focusId ∈ shownPath isActive after then none else some .focusOut
      else if focusId ∈ shownPath isActive after then some .focusIn else none := by
  by_cases differs : before ≠ after ∨ wasActive ≠ isActive
  · rw [announceFocus, if_pos differs, Option.bind_some]
    change WindowFocusEvent.change ⟨shownPath wasActive before, shownPath isActive after⟩ focusId = _
    by_cases was : focusId ∈ shownPath wasActive before <;>
      by_cases is : focusId ∈ shownPath isActive after <;>
      simp [WindowFocusEvent.change, WindowFocusEvent.isFocusIn, WindowFocusEvent.isFocusOut, was,
        is]
  · rw [announceFocus, if_neg differs]
    rw [not_or, not_not, not_not] at differs
    rw [differs.1, differs.2]
    by_cases is : focusId ∈ shownPath isActive after <;> simp [is]

theorem focusLost_announceFocus (before after : List FocusId) (wasActive isActive : Bool) :
    (announceFocus before after wasActive isActive).focusLost = true ↔
      before ≠ [] ∧ after = [] := by
  by_cases differs : before ≠ after ∨ wasActive ≠ isActive
  · rw [announceFocus, if_pos differs]
    simp
  · rw [announceFocus, if_neg differs]
    rw [not_or, not_not] at differs
    rw [differs.1]
    simp

@[simp]
theorem focusPath_announceFocus (before after : List FocusId) (wasActive isActive : Bool) :
    (announceFocus before after wasActive isActive).focusPath = after := by
  rw [announceFocus]
  split <;> rfl

/-- The focus path of the last draw. -/
def lastPath : List FocusId → List FocusDraw → List FocusId
  | before, [] => before
  | _, draw :: draws => lastPath draw.focusPath draws

theorem lastPath_snoc (before : List FocusId) (draws : List FocusDraw) (draw : FocusDraw) :
    lastPath before (draws ++ [draw]) = draw.focusPath := by
  induction draws generalizing before with
  | nil => rfl
  | cons first draws ih => exact ih first.focusPath

theorem FocusLostExactly.snoc {before : List FocusId} {draws : List FocusDraw} {draw : FocusDraw}
    (exactly : FocusLostExactly before draws)
    (lost : draw.focusLost = true ↔ lastPath before draws ≠ [] ∧ draw.focusPath = []) :
    FocusLostExactly before (draws ++ [draw]) := by
  induction draws generalizing before with
  | nil => exact ⟨lost, trivial⟩
  | cons first draws ih => exact ⟨exactly.1, ih exactly.2 lost⟩

/-- A log of changes with one more. -/
theorem changes_snoc {changes : List FocusChange} {change : FocusChange}
    (begins : changes.head? ≠ some .focusOut) (alternates : changes.IsChain (· ≠ ·))
    (fits : changes.getLast? = some .focusIn ↔ change = .focusOut) :
    (changes ++ [change]).head? ≠ some .focusOut ∧ (changes ++ [change]).IsChain (· ≠ ·) := by
  constructor
  · cases changes with
    | nil =>
        intro first
        rcases Option.some.inj first with rfl
        cases fits.mpr rfl
    | cons first changes => exact begins
  · apply List.isChain_append.mpr
    refine ⟨alternates, List.isChain_singleton _, ?_⟩
    intro last isLast other isOther
    rcases Option.some.inj isOther with rfl
    rintro rfl
    cases last with
    | focusIn => cases fits.mp isLast
    | focusOut => cases (fits.mpr rfl).symm.trans isLast

/-! ## Steps -/

namespace FocusWindow

variable {self next : FocusWindow L}

theorem changes_snoc (self : FocusWindow L) (draw : FocusDraw) (focusId : FocusId) :
    ({ self with draws := self.draws ++ [draw] } : FocusWindow L).changes focusId =
      self.changes focusId ++ (draw.event.bind fun event => event.change focusId).toList := by
  rw [changes, changes, List.filterMap_append, List.filterMap_cons, List.filterMap_nil]
  cases (draw.event.bind fun event => event.change focusId) with
  | none => rfl
  | some change => rfl

/-- Between two draws the frame keeps the focus path with which it was drawn. -/
structure Settled (window : FocusWindow L) : Prop where
  balanced : FocusBalanced window
  recorded : window.renderedFrame.focusPath = some (lastPath [] window.draws)

/-- What neither draws nor changes the focus path of the frame. -/
theorem Settled.of_same (settled : self.Settled) (draws : next.draws = self.draws)
    (windowActive : next.renderedFrame.windowActive = self.renderedFrame.windowActive)
    (focusPath : next.renderedFrame.focusPath = self.renderedFrame.focusPath) :
    next.Settled where
  balanced := by
    have sameChanges (focusId : FocusId) : next.changes focusId = self.changes focusId := by
      rw [changes, changes, draws]
    constructor
    · intro focusId
      rw [sameChanges]
      exact settled.balanced.begins focusId
    · intro focusId
      rw [sameChanges]
      exact settled.balanced.alternates focusId
    · intro focusId
      rw [sameChanges, windowActive, focusPath]
      exact settled.balanced.inForce focusId
    · rw [draws]
      exact settled.balanced.lost
  recorded := by
    rw [focusPath, draws]
    exact settled.recorded

theorem Settled.reusePrepaint (settled : self.Settled) {start stop : Nat}
    (reuses : self.reusePrepaint start stop = some next) : next.Settled := by
  rcases Option.bind_eq_some_iff.mp reuses with ⟨⟨reused, dispatchTree, source⟩, moves, same⟩
  rcases Option.some.inj same with rfl
  rcases DispatchTree.reuseSubtree_source moves with rfl
  apply settled.of_same
  · rfl
  · rfl
  · exact self.renderedFrame.focusPath_takeListeners start stop

/-- What a draw adds to the changes of a focus id, if they told where it was. -/
theorem changes_announce {changes : List FocusChange} {was : Prop} (is : Prop) [Decidable was]
    [Decidable is] (begins : changes.head? ≠ some .focusOut)
    (alternates : changes.IsChain (· ≠ ·)) (inForce : changes.getLast? = some .focusIn ↔ was) :
    let next := changes ++
      (if was then if is then none else some FocusChange.focusOut
        else if is then some .focusIn else none).toList
    next.head? ≠ some .focusOut ∧ next.IsChain (· ≠ ·) ∧ (next.getLast? = some .focusIn ↔ is) := by
  intro next
  by_cases focused : was <;> by_cases focuses : is
  · have same : next = changes := by simp [next, focused, focuses]
    rw [same, inForce]
    exact ⟨begins, alternates, iff_of_true focused focuses⟩
  · have same : next = changes ++ [.focusOut] := by simp [next, focused, focuses]
    have fits : changes.getLast? = some .focusIn ↔ FocusChange.focusOut = .focusOut := by
      simp [inForce, focused]
    rcases Gpui.changes_snoc begins alternates fits with ⟨first, chain⟩
    rw [same]
    exact ⟨first, chain, by simp [focuses]⟩
  · have same : next = changes ++ [.focusIn] := by simp [next, focused, focuses]
    have fits : changes.getLast? = some .focusIn ↔ FocusChange.focusIn = .focusOut := by
      simp [inForce, focused]
    rcases Gpui.changes_snoc begins alternates fits with ⟨first, chain⟩
    rw [same]
    exact ⟨first, chain, by simp [focuses]⟩
  · have same : next = changes := by simp [next, focused, focuses]
    rw [same, inForce]
    exact ⟨begins, alternates, iff_of_false focused focuses⟩

theorem Settled.finishDraw (settled : self.Settled) (finishes : self.finishDraw = some next) :
    next.Settled := by
  rcases Option.bind_eq_some_iff.mp finishes with ⟨before, wasPath, finishes⟩
  rcases Option.bind_eq_some_iff.mp finishes with ⟨after, isPath, same⟩
  rcases Option.some.inj same with rfl
  have lastBefore : lastPath [] self.draws = before :=
    Option.some.inj (settled.recorded.symm.trans wasPath)
  have inForce (focusId : FocusId) : (self.changes focusId).getLast? = some .focusIn ↔
      focusId ∈ shownPath self.renderedFrame.windowActive before := by
    rw [settled.balanced.inForce, wasPath, mem_shownPath]
    simp
  have told (focusId : FocusId) :=
    changes_announce (focusId ∈ shownPath self.active after)
      (settled.balanced.begins focusId) (settled.balanced.alternates focusId) (inForce focusId)
  simp only [← change_announceFocus, ← changes_snoc] at told
  constructor
  · constructor
    · exact fun focusId => (told focusId).1
    · exact fun focusId => (told focusId).2.1
    · intro focusId
      apply (told focusId).2.2.trans
      rw [mem_shownPath, isPath]
      simp
    · apply settled.balanced.lost.snoc
      rw [lastBefore, focusPath_announceFocus]
      exact focusLost_announceFocus _ _ _ _
  · rw [lastPath_snoc, focusPath_announceFocus]
    exact isPath

theorem Settled.step (settled : self.Settled) {event : FocusWindowEvent L}
    (steps : self.step event = some next) : next.Settled := by
  cases event with
  | focus focus =>
      rcases Option.some.inj steps with rfl
      exact settled.of_same rfl rfl rfl
  | activate active =>
      rcases Option.some.inj steps with rfl
      exact settled.of_same rfl rfl rfl
  | beginDraw =>
      rcases Option.ite_none_left_eq_some.mp steps with ⟨_, ⟨⟩⟩
      exact settled.of_same rfl rfl rfl
  | build event =>
      rcases Option.ite_none_right_eq_some.mp steps with ⟨_, steps⟩
      rcases Option.map_eq_some_iff.mp steps with ⟨dispatchTree, _, rfl⟩
      exact settled.of_same rfl rfl rfl
  | setFocusHandle focusId =>
      rcases Option.ite_none_right_eq_some.mp steps with ⟨_, steps⟩
      rcases Option.bind_eq_some_iff.mp steps with ⟨dispatchTree, _, ⟨⟩⟩
      exact settled.of_same rfl rfl rfl
  | reusePrepaint start stop =>
      exact settled.reusePrepaint (Option.ite_none_right_eq_some.mp steps).2
  | finishDraw => exact settled.finishDraw (Option.ite_none_right_eq_some.mp steps).2

/-! ## Runs -/

theorem settled_new : (new : FocusWindow L).Settled where
  balanced := by
    constructor
    · intro focusId first
      cases first
    · exact fun _ => List.isChain_nil
    · intro focusId
      constructor
      · intro told
        cases told
      · rintro ⟨active, _⟩
        cases active
    · trivial
  recorded := rfl

/-- However focus, activation and the frames change, the focus events are balanced. -/
theorem run_balanced {events : List (FocusWindowEvent L)} {last : FocusWindow L}
    (run : Run step (fun _ _ => True) new events last) : FocusBalanced last := by
  have settled : last.Settled := by
    apply run.invariant (fun _ window => window.Settled)
    · exact settled_new
    · intro _ _ _ _ settled _ steps
      exact settled.step steps
  exact settled.balanced

/-- An element is focused, and reused after the window was deactivated. -/
def deactivated : List (FocusWindowEvent Unit) :=
  [.activate true, .focus (some 1), .beginDraw, .build (.build .pushNode), .setFocusHandle 1,
    .build (.build .popNode), .finishDraw, .activate false, .beginDraw, .reusePrepaint 0 1,
    .finishDraw]

theorem run_balanced_deactivated :
    ∃ last : FocusWindow Unit, last.changes 1 = [.focusIn, .focusOut] ∧
      last.renderedFrame.focusPath = some [1] ∧ FocusBalanced last := by
  have runs : ∃ last : FocusWindow Unit, deactivated.foldlM step new = some last ∧
      last.changes 1 = [.focusIn, .focusOut] ∧ last.renderedFrame.focusPath = some [1] :=
    ⟨_, rfl, by decide, by decide⟩
  rcases runs with ⟨last, runs, changed, path⟩
  exact ⟨last, changed, path, run_balanced (Run.of_foldlM runs)⟩

end FocusWindow

end Gpui
