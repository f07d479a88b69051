import Gpui.Library.Logged
import Gpui.Window.ElementState

/-!
# An element drawn frame after frame

An element that is drawn once in every frame calls `with_element_state` with its key each
time, and the closure finds what it returned in the frame before.
-/

namespace Gpui

open Gpui.Library

namespace ElementStateWindow

variable {Key R : Type} {State : Key → Type} [DecidableEq Key]

/-- Draw a frame with one element, whose closure may fail. -/
def drawElement (self : ElementStateWindow State) (key : Key)
    (draw : Option (State key) → Option (R × State key)) :
    Option (R × ElementStateWindow State) := do
  let (state, self) := self.beginAccess key
  let (result, state) ← draw state
  let self ← self.endAccess key state
  let self ← self.finish
  return (result, self)

def drawFrames (self : ElementStateWindow State) (key : Key) :
    List (Option (State key) → Option (R × State key)) → Option (List R)
  | [] => some []
  | draw :: draws => do
      let (result, self) ← self.drawElement key draw
      let results ← self.drawFrames key draws
      return result :: results

end ElementStateWindow

/-- What an element returns frame after frame, with its state passed on. -/
def threadState {R S : Type} : Option S → List (Option S → Option (R × S)) → Option (List R)
  | _, [] => some []
  | state, draw :: draws => do
      let (result, state) ← draw state
      let results ← threadState (some state) draws
      return result :: results

/-- The closure of an element whose frames are the steps of a loop that logs. -/
def stepClosure {S Element ω : Type} (step : Option S → Element → Logged ω (Option S))
    (element : Element) (state : Option S) : Option (Unit × S) :=
  (step state element).result.bind fun next => next.map fun next => ((), next)

/-- A loop whose steps leave a state returns when the frames do. -/
theorem threadState_isSome {S Element ω : Type}
    {step : Option S → Element → Logged ω (Option S)}
    (leaves : ∀ state element next, (step state element).result = some next → next.isSome)
    (state : Option S) (elements : List Element) :
    (threadState state (elements.map (stepClosure step))).isSome =
      (Logged.iterate step state elements).result.isSome := by
  induction elements generalizing state with
  | nil => rfl
  | cons element elements ih =>
      rw [List.map_cons, threadState, Logged.iterate, Logged.bind, stepClosure]
      cases found : (step state element).result with
      | none => rfl
      | some next =>
          rcases Option.isSome_iff_exists.mp (leaves state element next found) with ⟨kept, rfl⟩
          simp only [Option.bind_some, Option.map_some, Option.bind_eq_bind]
          rw [← ih (some kept)]
          cases threadState (some kept) (elements.map (stepClosure step)) with
          | none => rfl
          | some results => rfl

namespace ElementStateWindow

variable {Key R : Type} {State : Key → Type} [DecidableEq Key]

omit [DecidableEq Key] in
/-- Between two frames. -/
structure Idle (self : ElementStateWindow State) : Prop where
  callers : self.callers = []
  nextFrame : self.nextFrame = .empty

omit [DecidableEq Key] in
theorem new_idle : Idle (.new : ElementStateWindow State) :=
  ⟨rfl, rfl⟩

/-- The closure gets the state of the rendered frame, and leaves its own there. -/
theorem drawElement_eq {self : ElementStateWindow State} (idle : self.Idle) (key : Key)
    (draw : Option (State key) → Option (R × State key)) :
    ∃ after : State key → ElementStateWindow State,
      (∀ state, (after state).Idle ∧ (after state).renderedFrame.elementStates key = some state) ∧
      self.drawElement key draw =
        (draw (self.renderedFrame.elementStates key)).map fun drawn =>
          (drawn.1, after drawn.2) := by
  rcases self with ⟨renderedFrame, nextFrame, callers⟩
  rcases idle with ⟨rfl, rfl⟩
  let nextStates (state : State key) : PartialMap Key State :=
    PartialMap.insert (PartialMap.empty : PartialMap Key State) key state
  let finished (state : State key) : ElementStateFrame State :=
    (⟨nextStates state, [key]⟩ : ElementStateFrame State).finish
      ⟨renderedFrame.elementStates.remove key, renderedFrame.accessedElementStates⟩
  refine ⟨fun state => ⟨finished state, .empty, []⟩, ?_, ?_⟩
  · intro state
    refine ⟨⟨rfl, rfl⟩, ?_⟩
    have promoted := PartialMap.foldl_promote_snd [key]
      (renderedFrame.elementStates.remove key, nextStates state) key
    have taken : renderedFrame.elementStates.remove key key = none :=
      PartialMap.remove_self renderedFrame.elementStates key
    have stored : nextStates state key = some state := PartialMap.insert_self _ key state
    rw [if_pos (List.mem_singleton_self key)] at promoted
    simp only [taken, stored, Option.none_or] at promoted
    exact promoted
  · simp only [drawElement, beginAccess, pushAccessed, takeState, ElementStateFrame.empty,
      PartialMap.empty_apply, List.nil_append]
    cases draw (renderedFrame.elementStates key) with
    | none => rfl
    | some drawn =>
        simp only [Option.bind_eq_bind, Option.bind_some, endAccess, if_true, finish,
          Option.pure_def, Option.map_some]
        rfl

/-- Drawing frame after frame passes the state on. -/
theorem drawFrames_eq {self : ElementStateWindow State} (idle : self.Idle) (key : Key)
    (draws : List (Option (State key) → Option (R × State key))) :
    self.drawFrames key draws = threadState (self.renderedFrame.elementStates key) draws := by
  induction draws generalizing self with
  | nil => rfl
  | cons draw draws ih =>
      rcases drawElement_eq idle key draw with ⟨after, kept, drawn⟩
      rw [drawFrames, threadState, drawn]
      cases draw (self.renderedFrame.elementStates key) with
      | none => rfl
      | some result =>
          rcases kept result.2 with ⟨idleAfter, isState⟩
          simp only [Option.map_some, Option.bind_eq_bind, Option.bind_some]
          rw [ih idleAfter, isState]

end ElementStateWindow

end Gpui
