import Gpui.Window.MouseDispatch

/-!
# Drop listeners

When the mouse button goes up over an element with drop listeners, the drag is taken out of
the app for each listener of its type, offered to the predicate of the element and handed to
the listener.

`typeId` is the type of a value.  A predicate and a listener are code that may change the app
in any way.
-/

namespace Gpui

/-- What an element that takes drops has registered. -/
structure DropTarget (T V S : Type) where
  dropListeners : List (T × (V → MouseApp V S → MouseApp V S))
  canDropPredicate : Option (V → MouseApp V S → Bool × MouseApp V S)
  /-- Whether the hitbox of the element is hovered. -/
  isHovered : S → Bool

/-- A call of a drop listener. -/
structure Drop (V : Type) where
  listener : Nat
  value : V
deriving DecidableEq, Repr

namespace DropTarget

variable {T V S : Type} [DecidableEq T] (typeId : V → T) (refresh : S → S)

/-- Ask the predicate about a value. -/
def canDrop (self : DropTarget T V S) (value : V) (app : MouseApp V S) : Bool × MouseApp V S :=
  match self.canDropPredicate with
  | none => (true, app)
  | some predicate => predicate value app

/-- What is done for one listener of the type of the drag. -/
def dropOn (self : DropTarget T V S) (dropStateType : T)
    (listener : V → MouseApp V S → MouseApp V S) (index : Nat) (app : MouseApp V S) :
    Option (List (Drop V) × MouseApp V S) := do
  -- `take().expect(..)`
  let value ← app.activeDrag
  let (canDrop, app) := self.canDrop value { app with activeDrag := none }
  if canDrop then
    -- The listener has its value from `downcast_ref().unwrap()`.
    if typeId value = dropStateType then
      let app := listener value app
      some ([⟨index, value⟩], { app with propagateEvent := false, rest := refresh app.rest })
    else none
  else some ([], app)

def dropLoop (self : DropTarget T V S) (dragStateType : T) :
    List ((T × (V → MouseApp V S → MouseApp V S)) × Nat) → MouseApp V S →
      Option (List (Drop V) × MouseApp V S)
  | [], app => some ([], app)
  | ((dropStateType, listener), index) :: rest, app =>
      if dropStateType = dragStateType then do
        let (drop, app) ← self.dropOn typeId refresh dropStateType listener index app
        let (drops, app) ← self.dropLoop dragStateType rest app
        some (drop ++ drops, app)
      else self.dropLoop dragStateType rest app

/-- The mouse listener that is registered for the drop listeners. -/
def onMouseUp (self : DropTarget T V S) : MouseListener (Drop V) V S := fun phase app =>
  match app.activeDrag with
  | none => some ([], app)
  | some value =>
      if phase = .bubble ∧ self.isHovered app.rest then
        self.dropLoop typeId refresh (typeId value) self.dropListeners.zipIdx app
      else some ([], app)

/-! ## Delivering a drop -/

/-- The listeners of the type of a value, with their places. -/
def matching (self : DropTarget T V S) (value : V) :
    List ((T × (V → MouseApp V S → MouseApp V S)) × Nat) :=
  self.dropListeners.zipIdx.filter fun entry => entry.1.1 = typeId value

/-- The predicate accepts a value.  It is asked when the drag has been taken out. -/
def Accepts (self : DropTarget T V S) (value : V) (app : MouseApp V S) : Prop :=
  (self.canDrop value { app with activeDrag := none }).1 = true

/-- A mouse-up over the element does not panic.  An accepted drag goes to every matching
listener once and to no element behind; any other stays. -/
def Delivers (self : DropTarget T V S) (behind : List (MouseListener (Drop V) V S)) (value : V)
    (app : MouseApp V S) : Prop :=
  ∃ drops after, self.onMouseUp typeId refresh .bubble app = some (drops, after) ∧
    (self.matching typeId value ≠ [] ∧ self.Accepts value app →
      drops = (self.matching typeId value).map (fun entry => ⟨entry.2, value⟩) ∧
        runMouseListeners .bubble (self.onMouseUp typeId refresh :: behind) app =
          some (drops, after)) ∧
    (¬ (self.matching typeId value ≠ [] ∧ self.Accepts value app) →
      drops = [] ∧ after.activeDrag = some value)

/-- One listener at most has the type of the drag, and then the predicate accepts. -/
def SingleAccepted (self : DropTarget T V S) (value : V) (app : MouseApp V S) : Prop :=
  (self.matching typeId value).length ≤ 1 ∧
    (self.matching typeId value ≠ [] → self.Accepts value app)

/-- The predicate and the listeners start no drag. -/
structure StartsNoDrag (target : DropTarget T V S) : Prop where
  predicate : ∀ value app, app.activeDrag = none →
    (target.canDrop value app).2.activeDrag = none
  listeners : ∀ entry ∈ target.dropListeners, ∀ value app, app.activeDrag = none →
    (entry.2 value app).activeDrag = none

variable {typeId refresh} {self : DropTarget T V S}

/-- Listeners of another type are passed over. -/
theorem dropLoop_filter (dragStateType : T)
    (listeners : List ((T × (V → MouseApp V S → MouseApp V S)) × Nat)) (app : MouseApp V S) :
    self.dropLoop typeId refresh dragStateType listeners app =
      self.dropLoop typeId refresh dragStateType
        (listeners.filter fun entry => entry.1.1 = dragStateType) app := by
  induction listeners generalizing app with
  | nil => rfl
  | cons entry rest ih =>
      rcases entry with ⟨⟨dropStateType, listener⟩, index⟩
      by_cases same : dropStateType = dragStateType
      · rw [List.filter_cons_of_pos (by simpa using same), dropLoop, dropLoop, if_pos same,
          if_pos same]
        simp only [ih]
      · rw [List.filter_cons_of_neg (by simpa using same), dropLoop, if_neg same, ih]

/-- At a mouse-up over the element the loop runs over the matching listeners. -/
theorem onMouseUp_bubble {value : V} {app : MouseApp V S} (active : app.activeDrag = some value)
    (hovered : self.isHovered app.rest = true) :
    self.onMouseUp typeId refresh .bubble app =
      self.dropLoop typeId refresh (typeId value) (self.matching typeId value) app := by
  rw [onMouseUp, active]
  exact (if_pos ⟨rfl, hovered⟩).trans (dropLoop_filter _ _ _)

theorem dropOn_accepts {value : V} {app : MouseApp V S} (active : app.activeDrag = some value)
    (accepts : self.Accepts value app) (listener : V → MouseApp V S → MouseApp V S)
    (index : Nat) :
    self.dropOn typeId refresh (typeId value) listener index app =
      some ([⟨index, value⟩],
        let after := listener value (self.canDrop value { app with activeDrag := none }).2
        { after with propagateEvent := false, rest := refresh after.rest }) := by
  rw [dropOn, active]
  change (if (self.canDrop value { app with activeDrag := none }).1 then _ else _) = _
  exact (if_pos accepts).trans (if_pos rfl)

theorem dropOn_rejects {value : V} {app : MouseApp V S} (active : app.activeDrag = some value)
    (rejects : ¬ self.Accepts value app) (listener : V → MouseApp V S → MouseApp V S)
    (index : Nat) :
    self.dropOn typeId refresh (typeId value) listener index app =
      some ([], (self.canDrop value { app with activeDrag := none }).2) := by
  rw [dropOn, active]
  change (if (self.canDrop value { app with activeDrag := none }).1 then _ else _) = _
  exact if_neg rejects

/-- A listener leaves no drag behind. -/
theorem StartsNoDrag.gone (quiet : self.StartsNoDrag) {value : V} {app after : MouseApp V S}
    (active : app.activeDrag = some value) {entry : T × (V → MouseApp V S → MouseApp V S)}
    (listener : entry ∈ self.dropListeners) (sameType : entry.1 = typeId value) {index : Nat}
    {drop : List (Drop V)}
    (drops : self.dropOn typeId refresh entry.1 entry.2 index app = some (drop, after)) :
    after.activeDrag = none := by
  have asked := quiet.predicate value { app with activeDrag := none } rfl
  rw [sameType] at drops
  by_cases accepts : self.Accepts value app
  · rw [dropOn_accepts active accepts] at drops
    cases drops
    exact quiet.listeners entry listener value _ asked
  · rw [dropOn_rejects active accepts] at drops
    cases drops
    exact asked

theorem mem_of_matching {value : V} {entry : (T × (V → MouseApp V S → MouseApp V S)) × Nat}
    (isMatching : entry ∈ self.matching typeId value) :
    entry.1 ∈ self.dropListeners ∧ entry.1.1 = typeId value := by
  rcases List.mem_filter.mp isMatching with ⟨member, sameType⟩
  exact ⟨List.fst_mem_of_mem_zipIdx member, of_decide_eq_true sameType⟩

/-- The second listener finds no drag. -/
theorem StartsNoDrag.dropLoop_two (quiet : self.StartsNoDrag) {value : V} {app : MouseApp V S}
    (active : app.activeDrag = some value)
    {first second : (T × (V → MouseApp V S → MouseApp V S)) × Nat}
    {rest : List ((T × (V → MouseApp V S → MouseApp V S)) × Nat)}
    (isMatching : self.matching typeId value = first :: second :: rest) :
    self.dropLoop typeId refresh (typeId value) (self.matching typeId value) app = none := by
  have firstOf : first ∈ self.matching typeId value := by
    rw [isMatching]
    exact List.mem_cons_self
  have secondOf : second ∈ self.matching typeId value := by
    rw [isMatching]
    exact List.mem_cons_of_mem _ List.mem_cons_self
  rcases mem_of_matching firstOf with ⟨isListener, sameType⟩
  rw [isMatching, dropLoop, if_pos sameType]
  cases drops : self.dropOn typeId refresh first.1.1 first.1.2 first.2 app with
  | none => rfl
  | some result =>
      rcases result with ⟨drop, after⟩
      have gone := quiet.gone active isListener sameType drops
      have panics : self.dropOn typeId refresh second.1.1 second.1.2 second.2 after = none := by
        rw [DropTarget.dropOn, gone]
        rfl
      change (self.dropLoop typeId refresh (typeId value) (second :: rest) after).bind _ = none
      rw [dropLoop, if_pos (mem_of_matching secondOf).2, panics]
      rfl

/-- With one accepted listener, or none, the drop is delivered. -/
theorem delivers_of_singleAccepted {value : V} {app : MouseApp V S}
    (active : app.activeDrag = some value) (hovered : self.isHovered app.rest = true)
    (single : self.SingleAccepted typeId value app)
    (behind : List (MouseListener (Drop V) V S)) :
    self.Delivers typeId refresh behind value app := by
  rcases single with ⟨atMostOne, accepted⟩
  have runs : self.onMouseUp typeId refresh .bubble app = _ := onMouseUp_bubble active hovered
  cases isMatching : self.matching typeId value with
  | nil =>
      rw [isMatching, dropLoop] at runs
      refine ⟨[], app, runs, ?_, fun _ => ⟨rfl, active⟩⟩
      rintro ⟨some, -⟩
      exact absurd isMatching some
  | cons entry rest =>
      have accepts := accepted (isMatching ▸ List.cons_ne_nil entry rest)
      have sameType : entry.1.1 = typeId value :=
        (mem_of_matching (isMatching ▸ List.mem_cons_self)).2
      rw [isMatching, List.length_cons] at atMostOne
      rcases List.length_eq_zero_iff.mp (Nat.le_zero.mp (Nat.le_of_succ_le_succ atMostOne)) with rfl
      rw [isMatching, dropLoop, if_pos sameType, sameType, dropOn_accepts active accepts] at runs
      simp only [dropLoop, Option.bind_eq_bind, Option.bind_some, List.append_nil] at runs
      refine ⟨_, _, runs, fun _ => ⟨?_, ?_⟩, fun rejected => ?_⟩
      · rw [isMatching]
        rfl
      · rw [runMouseListeners_cons runs]
        rfl
      · exact absurd ⟨isMatching ▸ List.cons_ne_nil entry [], accepts⟩ rejected

/-- A mouse-up over the element delivers the drop where one listener at most has the type of
the drag and the predicate accepts it; nowhere else, if the callbacks start no drag. -/
theorem delivers_iff {value : V} {app : MouseApp V S} (active : app.activeDrag = some value)
    (hovered : self.isHovered app.rest = true) (behind : List (MouseListener (Drop V) V S)) :
    (self.SingleAccepted typeId value app → self.Delivers typeId refresh behind value app) ∧
      (self.StartsNoDrag → self.Delivers typeId refresh behind value app →
        self.SingleAccepted typeId value app) := by
  constructor
  · exact fun single => delivers_of_singleAccepted active hovered single behind
  · rintro quiet ⟨drops, after, runs, -, stays⟩
    rw [onMouseUp_bubble active hovered] at runs
    cases isMatching : self.matching typeId value with
    | nil => exact ⟨by rw [isMatching]; exact Nat.zero_le 1, fun some => absurd isMatching some⟩
    | cons first rest =>
        cases rest with
        | cons second rest =>
            rw [quiet.dropLoop_two active isMatching] at runs
            cases runs
        | nil =>
            refine ⟨by rw [isMatching]; exact le_rfl, fun _ => ?_⟩
            by_contra rejects
            -- A rejected drag has been taken out of the app.
            rcases mem_of_matching (isMatching ▸ List.mem_cons_self) with ⟨isListener, sameType⟩
            rw [isMatching, dropLoop, if_pos sameType] at runs
            rcases Option.bind_eq_some_iff.mp runs with ⟨⟨drop, last⟩, dropped, ends⟩
            cases ends
            have gone := quiet.gone active isListener sameType dropped
            have kept := (stays fun accepted => rejects accepted.2).2
            rw [gone] at kept
            cases kept

/-- Of two listeners one has the type of the drag. -/
theorem delivers_iff_listener :
    (⟨[(true, fun _ app => app), (false, fun _ app => app)],
        some fun value app => (value.2 = 7, app), fun _ => true⟩ :
      DropTarget Bool (Bool × Nat) Unit).Delivers Prod.fst id [] (false, 7)
        ⟨some (false, 7), true, ()⟩ := by
  apply (delivers_iff rfl rfl []).1
  exact ⟨by decide, fun _ => rfl⟩

/-- A drag whose type two listeners have panics; one that the predicate rejects is lost. -/
theorem not_delivers :
    ¬ (⟨[((), fun _ app => app), ((), fun _ app => app)], none, fun _ => true⟩ :
        DropTarget Unit Nat Unit).Delivers (fun _ => ()) id [] 7 ⟨some 7, true, ()⟩ ∧
      ¬ (⟨[((), fun _ app => app)], some fun _ app => (false, app), fun _ => true⟩ :
        DropTarget Unit Nat Unit).Delivers (fun _ => ()) id [] 7 ⟨some 7, true, ()⟩ := by
  constructor
  · rintro ⟨drops, after, runs, -⟩
    cases runs
  · rintro ⟨drops, after, runs, -, stays⟩
    cases runs
    have kept := (stays fun accepted => Bool.false_ne_true accepted.2).2
    cases kept

end DropTarget

end Gpui
