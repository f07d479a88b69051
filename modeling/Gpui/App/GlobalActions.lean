import Gpui.Dispatch.Tree
import Gpui.Library.PartialMap

/-!
# Dispatching actions to listeners

Two dispatches run the global listeners of an action: the one of a window, which runs
the listeners on the path to a node in between, and the one of the app.  Both take the
list out of the map while its listeners run and put it back before what the listeners
left there.

A listener is code: it registers listeners, stops the propagation, changes whatever else
the app holds and dispatches further actions, whose listeners do the same.  `Callback` is
what such code may do.  A panic, or a listener that does not return, yields `none`.
-/

namespace Gpui

open Library

inductive DispatchPhase where
  | capture
  | bubble
deriving DecidableEq

/-- What dispatching uses of the app. -/
structure ActionApp (L W : Type) where
  globalActionListeners : PartialMap Nat fun _ => List L
  propagateEvent : Bool
  /-- The windows and all else that listeners may change. -/
  rest : W
  /-- The calls of `on_action` so far, which no code reads. -/
  registered : List (Nat × L)

namespace DispatchTree

variable {K : Type}

/-- The nodes from a node up; a walk longer than the tree is large never ends. -/
def nodesAbove (self : DispatchTree K) :
    Nat → Option DispatchNodeId → Option (List DispatchNodeId)
  | _, none => some []
  | 0, some _ => none
  | rounds + 1, some nodeId => do
      let above ← self.nodesAbove rounds (self.nodes[nodeId]?.bind DispatchNode.parent)
      return nodeId :: above

def dispatchPath (self : DispatchTree K) (target : DispatchNodeId) :
    Option (List DispatchNodeId) :=
  (self.nodesAbove (self.nodes.length + 2) (some target)).map List.reverse

end DispatchTree

/-- Run the body for one item after the other, until one stops the propagation. -/
def whilePropagating {α L W : Type} (body : α → ActionApp L W → Option (ActionApp L W)) :
    List α → ActionApp L W → Option (ActionApp L W)
  | [], cx => some cx
  | item :: items, cx => do
      let cx ← body item cx
      if cx.propagateEvent then whilePropagating body items cx else return cx

namespace ActionApp

variable {L K W : Type}

/-- The listener of the source does nothing in the capture phase; here it may do anything in
either. -/
def onAction (self : ActionApp L W) (actionType : Nat) (listener : L) : ActionApp L W :=
  { self with
    globalActionListeners := self.globalActionListeners.insert actionType
      ((self.globalActionListeners actionType).getD [] ++ [listener])
    registered := self.registered ++ [(actionType, listener)] }

/-- Take the list of an action out, run its listeners, and put it back before what has been
registered meanwhile. -/
def withGlobalListeners (self : ActionApp L W) (actionType : Nat)
    (run : List L → ActionApp L W → Option (ActionApp L W)) : Option (ActionApp L W) :=
  match self.globalActionListeners actionType with
  | none => some self
  | some globalListeners => do
      let cx ← run globalListeners
        { self with globalActionListeners := self.globalActionListeners.remove actionType }
      let added := (cx.globalActionListeners actionType).getD []
      return { cx with
        globalActionListeners := (cx.globalActionListeners.remove actionType).insert actionType
          (globalListeners ++ added) }

def dispatchGlobalAction (self : ActionApp L W)
    (listener : L → DispatchPhase → ActionApp L W → Option (ActionApp L W))
    (actionType : Nat) : Option (ActionApp L W) := do
  let cx ← { self with propagateEvent := true }.withGlobalListeners actionType
    (whilePropagating fun global => listener global .capture)
  if cx.propagateEvent then
    cx.withGlobalListeners actionType fun globalListeners =>
      whilePropagating (fun global => listener global .bubble) globalListeners.reverse
  else return cx

/-- The action listeners of a node for one type of actions. -/
def listenersOnNode (dispatchTree : W → DispatchTree K) (actionType : Nat)
    (nodeId : DispatchNodeId) (self : ActionApp L W) : Option (List K) := do
  let node ← (dispatchTree self.rest).nodes[nodeId]?
  return (node.actionListeners.filter fun entry => entry.1 = actionType).map Prod.snd

/-- Actions stop propagation by default during the bubble phase. -/
def stopped {α : Type} (listener : α → DispatchPhase → ActionApp L W → Option (ActionApp L W))
    (callee : α) (cx : ActionApp L W) : Option (ActionApp L W) :=
  listener callee .bubble { cx with propagateEvent := false }

/-- `dispatchTree` reads the tree of the window's rendered frame, at the time it is used. -/
def dispatchActionOnNode (self : ActionApp L W) (dispatchTree : W → DispatchTree K)
    (listener : L → DispatchPhase → ActionApp L W → Option (ActionApp L W))
    (windowListener : K → DispatchPhase → ActionApp L W → Option (ActionApp L W))
    (nodeId : DispatchNodeId) (actionType : Nat) : Option (ActionApp L W) := do
  let dispatchPath ← (dispatchTree self.rest).dispatchPath nodeId
  -- Capture phase for global actions.
  let cx ← { self with propagateEvent := true }.withGlobalListeners actionType
    (whilePropagating fun global => listener global .capture)
  if ¬ cx.propagateEvent then return cx
  -- Capture phase for window actions.
  let cx ← whilePropagating (fun nodeId cx => do
    whilePropagating (fun callee => windowListener callee .capture)
      (← cx.listenersOnNode dispatchTree actionType nodeId) cx) dispatchPath cx
  if ¬ cx.propagateEvent then return cx
  -- Bubble phase for window actions.
  let cx ← whilePropagating (fun nodeId cx => do
    whilePropagating (stopped windowListener)
      (← cx.listenersOnNode dispatchTree actionType nodeId) cx) dispatchPath.reverse cx
  if ¬ cx.propagateEvent then return cx
  -- Bubble phase for global actions.
  cx.withGlobalListeners actionType fun globalListeners =>
    whilePropagating (stopped listener) globalListeners.reverse

/-- What code that runs in a dispatch may do to the app: nothing, one thing after another,
and each of the operations with listeners that are such code. -/
inductive Callback : ActionApp L W → ActionApp L W → Prop where
  | refl (cx : ActionApp L W) : Callback cx cx
  | trans {cx middle last : ActionApp L W} (first : Callback cx middle)
      (second : Callback middle last) : Callback cx last
  | onAction (cx : ActionApp L W) (actionType : Nat) (listener : L) :
      Callback cx (cx.onAction actionType listener)
  | propagate (cx : ActionApp L W) (event : Bool) :
      Callback cx { cx with propagateEvent := event }
  | other (cx : ActionApp L W) (rest : W) : Callback cx { cx with rest }
  | dispatchGlobalAction {cx last : ActionApp L W}
      {listener : L → DispatchPhase → ActionApp L W → Option (ActionApp L W)} {actionType : Nat}
      (calls : ∀ {callee phase before after}, listener callee phase before = some after →
        Callback before after)
      (returns : cx.dispatchGlobalAction listener actionType = some last) : Callback cx last
  | dispatchActionOnNode {K : Type} {cx last : ActionApp L W} {dispatchTree : W → DispatchTree K}
      {listener : L → DispatchPhase → ActionApp L W → Option (ActionApp L W)}
      {windowListener : K → DispatchPhase → ActionApp L W → Option (ActionApp L W)}
      {nodeId : DispatchNodeId} {actionType : Nat}
      (calls : ∀ {callee phase before after}, listener callee phase before = some after →
        Callback before after)
      (windowCalls : ∀ {callee phase before after},
        windowListener callee phase before = some after → Callback before after)
      (returns : cx.dispatchActionOnNode dispatchTree listener windowListener nodeId actionType =
        some last) : Callback cx last

/-! ## What is left of a list -/

/-- The list of an action; a type that was never registered has no entry. -/
def listenersOf (self : ActionApp L W) (actionType : Nat) : List L :=
  (self.globalActionListeners actionType).getD []

/-- The listeners of an action among registrations, in their order. -/
def registeredFor (during : List (Nat × L)) (actionType : Nat) : List L :=
  (during.filter fun entry => entry.1 = actionType).map Prod.snd

theorem registeredFor_append (earlier later : List (Nat × L)) (actionType : Nat) :
    registeredFor (earlier ++ later) actionType =
      registeredFor earlier actionType ++ registeredFor later actionType := by
  rw [registeredFor, List.filter_append, List.map_append]
  rfl

/-- Every list is what it was, followed by what was registered in between. -/
def Extends (before after : ActionApp L W) : Prop :=
  ∃ during, after.registered = before.registered ++ during ∧
    ∀ actionType, after.listenersOf actionType =
      before.listenersOf actionType ++ registeredFor during actionType

namespace Extends

theorem of_same {before after : ActionApp L W}
    (registered : after.registered = before.registered)
    (lists : ∀ actionType, after.listenersOf actionType = before.listenersOf actionType) :
    before.Extends after := by
  refine ⟨[], ?_, ?_⟩
  · rw [registered, List.append_nil]
  · intro actionType
    rw [lists]
    exact (List.append_nil _).symm

theorem refl (cx : ActionApp L W) : cx.Extends cx :=
  of_same rfl fun _ => rfl

theorem trans {before middle after : ActionApp L W} (first : before.Extends middle)
    (second : middle.Extends after) : before.Extends after := by
  rcases first with ⟨early, registeredEarly, listsEarly⟩
  rcases second with ⟨late, registeredLate, listsLate⟩
  refine ⟨early ++ late, ?_, ?_⟩
  · rw [registeredLate, registeredEarly, List.append_assoc]
  · intro actionType
    rw [listsLate, listsEarly, registeredFor_append, List.append_assoc]

end Extends

theorem extends_onAction (self : ActionApp L W) (actionType : Nat) (listener : L) :
    self.Extends (self.onAction actionType listener) := by
  refine ⟨[(actionType, listener)], rfl, ?_⟩
  intro other
  by_cases same : other = actionType
  · subst same
    simp [onAction, listenersOf, registeredFor]
  · have apart : ¬ actionType = other := fun equal => same equal.symm
    simp [onAction, listenersOf, registeredFor, same, apart]

theorem extends_whilePropagating {α : Type} {body : α → ActionApp L W → Option (ActionApp L W)}
    (calls : ∀ {item before after}, body item before = some after → before.Extends after)
    {items : List α} {cx last : ActionApp L W}
    (runs : whilePropagating body items cx = some last) : cx.Extends last := by
  induction items generalizing cx with
  | nil =>
      cases runs
      exact .refl _
  | cons item items ih =>
      rcases Option.bind_eq_some_iff.mp runs with ⟨next, called, continues⟩
      by_cases propagates : next.propagateEvent = true
      · rw [if_pos propagates] at continues
        exact (calls called).trans (ih continues)
      · rw [if_neg propagates] at continues
        cases continues
        exact calls called

/-- While the list of one action is out of the map, what its listeners leave there is what they
registered, so the list is put back before it. -/
theorem extends_withGlobalListeners {actionType : Nat}
    {run : List L → ActionApp L W → Option (ActionApp L W)}
    (runs : ∀ {globalListeners before after}, run globalListeners before = some after →
      before.Extends after)
    {self last : ActionApp L W} (returns : self.withGlobalListeners actionType run = some last) :
    self.Extends last := by
  unfold withGlobalListeners at returns
  cases present : self.globalActionListeners actionType with
  | none =>
      rw [present] at returns
      cases returns
      exact .refl _
  | some globalListeners =>
      rw [present] at returns
      rcases Option.bind_eq_some_iff.mp returns with ⟨cx, ran, same⟩
      cases same
      rcases runs ran with ⟨during, registered, lists⟩
      refine ⟨during, registered, ?_⟩
      intro other
      by_cases taken : other = actionType
      · subst taken
        have left : cx.listenersOf other = registeredFor during other := by
          simpa [listenersOf] using lists other
        have merged : globalListeners ++ cx.listenersOf other =
            globalListeners ++ registeredFor during other := by
          rw [left]
        simpa [listenersOf, present] using merged
      · have kept := lists other
        simpa [listenersOf, taken] using kept

theorem extends_dispatchGlobalAction
    {listener : L → DispatchPhase → ActionApp L W → Option (ActionApp L W)} {actionType : Nat}
    (calls : ∀ {callee phase before after}, listener callee phase before = some after →
      before.Extends after)
    {self last : ActionApp L W}
    (returns : self.dispatchGlobalAction listener actionType = some last) :
    self.Extends last := by
  rcases Option.bind_eq_some_iff.mp returns with ⟨captured, capture, rest⟩
  have start : self.Extends { self with propagateEvent := true } := .of_same rfl fun _ => rfl
  have captures : self.Extends captured := by
    apply start.trans
    exact extends_withGlobalListeners (extends_whilePropagating calls) capture
  by_cases propagates : captured.propagateEvent = true
  · rw [if_pos propagates] at rest
    exact captures.trans (extends_withGlobalListeners (extends_whilePropagating calls) rest)
  · rw [if_neg propagates] at rest
    cases rest
    exact captures

theorem extends_stopped {α : Type}
    {listener : α → DispatchPhase → ActionApp L W → Option (ActionApp L W)}
    (calls : ∀ {callee phase before after}, listener callee phase before = some after →
      before.Extends after)
    {callee : α} {before after : ActionApp L W}
    (called : stopped listener callee before = some after) : before.Extends after := by
  have start : before.Extends { before with propagateEvent := false } := .of_same rfl fun _ => rfl
  exact start.trans (calls called)

/-- One phase of the window's listeners, over the nodes of the path. -/
theorem extends_whilePropagating_nodes {dispatchTree : W → DispatchTree K} {actionType : Nat}
    {body : K → ActionApp L W → Option (ActionApp L W)}
    (calls : ∀ {callee before after}, body callee before = some after → before.Extends after)
    {nodeIds : List DispatchNodeId} {cx last : ActionApp L W}
    (runs : whilePropagating (fun nodeId cx => do
      whilePropagating body (← cx.listenersOnNode dispatchTree actionType nodeId) cx)
        nodeIds cx = some last) : cx.Extends last := by
  apply extends_whilePropagating _ runs
  intro nodeId before after node
  rcases Option.bind_eq_some_iff.mp node with ⟨callees, _, called⟩
  exact extends_whilePropagating calls called

theorem extends_dispatchActionOnNode {dispatchTree : W → DispatchTree K}
    {listener : L → DispatchPhase → ActionApp L W → Option (ActionApp L W)}
    {windowListener : K → DispatchPhase → ActionApp L W → Option (ActionApp L W)}
    {nodeId : DispatchNodeId} {actionType : Nat}
    (calls : ∀ {callee phase before after}, listener callee phase before = some after →
      before.Extends after)
    (windowCalls : ∀ {callee phase before after},
      windowListener callee phase before = some after → before.Extends after)
    {self last : ActionApp L W}
    (returns : self.dispatchActionOnNode dispatchTree listener windowListener nodeId actionType =
      some last) : self.Extends last := by
  rcases Option.bind_eq_some_iff.mp returns with ⟨dispatchPath, _, afterPath⟩
  rcases Option.bind_eq_some_iff.mp afterPath with ⟨captured, capture, afterCapture⟩
  have start : self.Extends { self with propagateEvent := true } := .of_same rfl fun _ => rfl
  have captures : self.Extends captured := by
    apply start.trans
    exact extends_withGlobalListeners (extends_whilePropagating calls) capture
  by_cases stops : ¬ captured.propagateEvent = true
  · rw [if_pos stops] at afterCapture
    cases afterCapture
    exact captures
  rw [if_neg stops] at afterCapture
  rcases Option.bind_eq_some_iff.mp afterCapture with ⟨descended, descent, afterDescent⟩
  have descends : self.Extends descended :=
    captures.trans (extends_whilePropagating_nodes windowCalls descent)
  by_cases stops : ¬ descended.propagateEvent = true
  · rw [if_pos stops] at afterDescent
    cases afterDescent
    exact descends
  rw [if_neg stops] at afterDescent
  rcases Option.bind_eq_some_iff.mp afterDescent with ⟨ascended, ascent, afterAscent⟩
  have ascends : self.Extends ascended :=
    descends.trans (extends_whilePropagating_nodes (extends_stopped windowCalls) ascent)
  by_cases stops : ¬ ascended.propagateEvent = true
  · rw [if_pos stops] at afterAscent
    cases afterAscent
    exact ascends
  rw [if_neg stops] at afterAscent
  apply ascends.trans
  exact extends_withGlobalListeners (extends_whilePropagating (extends_stopped calls)) afterAscent

/-- Code that runs in a dispatch only extends the lists, however deep it dispatches. -/
theorem Callback.extends {cx last : ActionApp L W} (callback : Callback cx last) :
    cx.Extends last := by
  induction callback with
  | refl cx => exact .refl cx
  | trans _ _ first second => exact first.trans second
  | onAction cx actionType listener => exact extends_onAction cx actionType listener
  | propagate cx event => exact .of_same rfl fun _ => rfl
  | other cx rest => exact .of_same rfl fun _ => rfl
  | dispatchGlobalAction _ returns calls => exact extends_dispatchGlobalAction calls returns
  | dispatchActionOnNode _ _ returns calls windowCalls =>
      exact extends_dispatchActionOnNode calls windowCalls returns

/-- When a dispatch returns, the list of every action is what it was before, followed by what
its listeners registered, in that order. -/
theorem dispatch_keeps_listeners {dispatchTree : W → DispatchTree K}
    {listener : L → DispatchPhase → ActionApp L W → Option (ActionApp L W)}
    {windowListener : K → DispatchPhase → ActionApp L W → Option (ActionApp L W)}
    (calls : ∀ {callee phase before after}, listener callee phase before = some after →
      Callback before after)
    (windowCalls : ∀ {callee phase before after},
      windowListener callee phase before = some after → Callback before after)
    {cx last : ActionApp L W} {nodeId : DispatchNodeId} {actionType : Nat}
    (returns : cx.dispatchGlobalAction listener actionType = some last ∨
      cx.dispatchActionOnNode dispatchTree listener windowListener nodeId actionType =
        some last) :
    ∃ during, last.registered = cx.registered ++ during ∧ ∀ other, last.listenersOf other =
      cx.listenersOf other ++ registeredFor during other := by
  rcases returns with returns | returns
  · exact extends_dispatchGlobalAction (fun called => (calls called).extends) returns
  · apply extends_dispatchActionOnNode _ _ returns
    · exact fun called => (calls called).extends
    · exact fun called => (windowCalls called).extends

/-- A listener that registers another, dispatches to it, and registers a third. -/
def reentrant (callee : Nat) (phase : DispatchPhase) (cx : ActionApp Nat W) :
    Option (ActionApp Nat W) :=
  if callee = 0 ∧ phase = .bubble then
    ((cx.onAction 7 1).dispatchGlobalAction (fun _ _ cx => some cx) 7).map
      fun cx => cx.onAction 7 2
  else some cx

theorem reentrant_callback {callee : Nat} {phase : DispatchPhase} {before after : ActionApp Nat W}
    (called : reentrant callee phase before = some after) : Callback before after := by
  unfold reentrant at called
  split_ifs at called
  · rcases Option.map_eq_some_iff.mp called with ⟨last, returns, same⟩
    subst same
    apply Callback.trans (.onAction before 7 1)
    apply Callback.trans _ (.onAction last 7 2)
    exact .dispatchGlobalAction (fun same => Option.some.inj same ▸ .refl _) returns
  · cases called
    exact .refl _

/-- A tree of one node with one action listener. -/
def listeningNode : DispatchTree Nat :=
  let node : DispatchNode Nat := .new none
  let tree : DispatchTree Nat := .new
  { tree with nodes := [{ node with actionListeners := [(7, 5)] }] }

theorem dispatch_keeps_listeners_reentrant :
    ∃ cx last : ActionApp Nat Unit, cx.listenersOf 7 = [0] ∧ last.listenersOf 7 = [0, 1, 2] ∧
      ∃ during, last.registered = cx.registered ++ during ∧ ∀ other, last.listenersOf other =
        cx.listenersOf other ++ registeredFor during other := by
  let cx : ActionApp Nat Unit := ⟨PartialMap.empty.insert 7 [0], true, (), []⟩
  have dispatched : ∃ last, cx.dispatchActionOnNode (fun _ => listeningNode) reentrant
      (fun _ _ cx => some { cx with propagateEvent := true }) 0 7 = some last ∧
      last.listenersOf 7 = [0, 1, 2] :=
    ⟨_, rfl, rfl⟩
  rcases dispatched with ⟨last, returns, reached⟩
  refine ⟨cx, last, rfl, reached, ?_⟩
  apply dispatch_keeps_listeners reentrant_callback _ (.inr returns)
  rintro _ _ before _ ⟨⟩
  exact .propagate before true

end ActionApp

end Gpui
