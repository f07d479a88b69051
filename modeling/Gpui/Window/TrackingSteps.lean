import Gpui.Window.AccessedEntities

/-!
# Steps of a draw

A ledger follows the application and notes what each render read and what each window
shows.  Every step is one of a few kinds, by what it does to the accessed entities, the
running views and the states that views leave behind.
-/

namespace Gpui

open Gpui.Library

/-! ## The states in the frames -/

namespace ElementStateWindow

variable {Key : Type} {State : Key → Type}

/-- The states in both frames have the property. -/
def Forall (self : ElementStateWindow State) (property : ∀ key, State key → Prop) : Prop :=
  (∀ key state, self.nextFrame.elementStates key = some state → property key state) ∧
    ∀ key state, self.renderedFrame.elementStates key = some state → property key state

theorem Forall.mono {self : ElementStateWindow State} {property weaker : ∀ key, State key → Prop}
    (holds : self.Forall property) (implies : ∀ key state, property key state → weaker key state) :
    self.Forall weaker :=
  ⟨fun key state found => implies key state (holds.1 key state found),
    fun key state found => implies key state (holds.2 key state found)⟩

variable [DecidableEq Key]

theorem Forall.beginAccess {self : ElementStateWindow State} {property : ∀ key, State key → Prop}
    (holds : self.Forall property) (key : Key) :
    (∀ state, (self.beginAccess key).1 = some state → property key state) ∧
      (self.beginAccess key).2.Forall property := by
  have pushed : (self.pushAccessed key).Forall property := holds
  show (∀ state, ((self.pushAccessed key).takeState key).1 = some state → property key state) ∧
    ((self.pushAccessed key).takeState key).2.Forall property
  generalize self.pushAccessed key = window at pushed
  cases found : window.nextFrame.elementStates key with
  | some state =>
      simp only [takeState, found]
      constructor
      · rintro _ ⟨⟩
        exact pushed.1 key state found
      · exact ⟨PartialMap.forall_remove pushed.1 key, pushed.2⟩
  | none =>
      simp only [takeState, found]
      exact ⟨pushed.2 key, pushed.1, PartialMap.forall_remove pushed.2 key⟩

theorem Forall.endAccess {self next : ElementStateWindow State}
    {property : ∀ key, State key → Prop} (holds : self.Forall property) {key : Key}
    {state : State key} (ends : self.endAccess key state = some next) (new : property key state) :
    next.Forall property := by
  unfold ElementStateWindow.endAccess at ends
  split at ends
  · rw [Option.ite_none_right_eq_some] at ends
    rcases ends with ⟨rfl, ⟨⟩⟩
    exact ⟨PartialMap.forall_insert holds.1 new, holds.2⟩
  · cases ends

omit [DecidableEq Key] in
theorem Forall.reuse {self next : ElementStateWindow State} {property : ∀ key, State key → Prop}
    (holds : self.Forall property) {start stop : Nat} (reuses : self.reuse start stop = some next) :
    next.Forall property := by
  simp only [ElementStateWindow.reuse, Option.ite_none_right_eq_some] at reuses
  rcases reuses with ⟨-, ⟨⟩⟩
  exact holds

theorem Forall.finish {self next : ElementStateWindow State} {property : ∀ key, State key → Prop}
    (holds : self.Forall property) (finishes : self.finish = some next) :
    next.Forall property := by
  simp only [ElementStateWindow.finish, Option.ite_none_right_eq_some] at finishes
  rcases finishes with ⟨-, ⟨⟩⟩
  constructor
  · rintro key state ⟨⟩
  · exact (PartialMap.foldl_promote_forall _ holds.2 holds.1).2

end ElementStateWindow

variable {E V W : Type}

/-! ## The condition -/

/-- The window that is drawn. -/
def DrawState.window : DrawState W → Option W
  | .idle => none
  | .drawing window | .finished window => some window

namespace EntityTracking

/-- Every state of a view, in a frame or in use, has the property, given by its render and
the entities it holds. -/
def EveryState (self : EntityTracking E V W) (property : Nat → (E → Bool) → Prop) : Prop :=
  (∀ window, (self.windows window).elementStates.Forall fun _ state =>
      property state.render state.accessedEntities) ∧
    ∀ view state paintStart refreshing, .painting view state paintStart refreshing ∈ self.calls →
      property state.render state.accessedEntities

/-- What is noted as accessed was not noted before the prepaint of a cached view around
it, and a cached view around it that is prepainted already has noted it. -/
def Recorded (self : EntityTracking E V W) (ledger : ReadLedger E W) (entity : E) : Prop :=
  (∀ render view accessedEntitiesStart prepaintStart refreshing,
      .prepainting render view accessedEntitiesStart prepaintStart refreshing ∈ self.calls →
      accessedEntitiesStart entity = false) ∧
    self.EveryState fun render accessedEntities =>
      ledger.Around self.calls render → accessedEntities entity = true

variable [DecidableEq E] [DecidableEq V] [DecidableEq W]

/-- A step, noted in the ledger. -/
def observe (observed : EntityTracking E V W × ReadLedger E W) (event : TrackingEvent E V W) :
    Option (EntityTracking E V W × ReadLedger E W) :=
  (observed.1.step event).map fun next => (next, observed.2.step observed.1 event)

/-- The entities that a step notes meet the condition. -/
def NotesRecorded (observed : EntityTracking E V W × ReadLedger E W) :
    TrackingEvent E V W → Prop
  | .access entity => observed.1.Recorded observed.2 entity
  | .reusePrepaint view =>
      ∀ window, observed.1.draw = .drawing window →
        ∀ state next, observed.1.reusePrepaint window view = some (state, next) →
          ∀ entity, state.accessedEntities entity = true → observed.1.Recorded observed.2 entity
  | _ => True

/-! ## Steps -/

omit [DecidableEq E] [DecidableEq V] [DecidableEq W] in
theorem EveryState.mono {self : EntityTracking E V W} {property weaker : Nat → (E → Bool) → Prop}
    (holds : self.EveryState property)
    (implies : ∀ render entities, property render entities → weaker render entities) :
    self.EveryState weaker :=
  ⟨fun window => (holds.1 window).mono fun _ _ => implies _ _,
    fun view state paintStart refreshing member =>
      implies _ _ (holds.2 view state paintStart refreshing member)⟩

omit [DecidableEq E] [DecidableEq V] [DecidableEq W] in
theorem EveryState.and {self : EntityTracking E V W} {property other : Nat → (E → Bool) → Prop}
    (holds : self.EveryState property) (otherHolds : self.EveryState other) :
    self.EveryState fun render entities => property render entities ∧ other render entities := by
  constructor
  · intro window
    constructor
    · exact fun view state found =>
        ⟨(holds.1 window).1 view state found, (otherHolds.1 window).1 view state found⟩
    · exact fun view state found =>
        ⟨(holds.1 window).2 view state found, (otherHolds.1 window).2 view state found⟩
  · exact fun view state paintStart refreshing member =>
      ⟨holds.2 view state paintStart refreshing member,
        otherHolds.2 view state paintStart refreshing member⟩

/-- What only the beginning and the end of a draw touch. -/
structure SameBooks (before after : EntityTracking E V W) : Prop where
  tracked : after.trackedEntities = before.trackedEntities
  invalidators : after.windowInvalidatorsByEntity = before.windowInvalidatorsByEntity
  firstRender : after.firstRender = before.firstRender

/-- Everything a step can do, with what the ledger makes of it. -/
inductive Stepped (before : EntityTracking E V W) (ledger : ReadLedger E W) :
    TrackingEvent E V W → EntityTracking E V W → ReadLedger E W → Prop where
  | access (entity : E) :
      Stepped before ledger (.access entity) (before.access entity)
        (ledger.read before.calls entity)
  | beginDraw (window : W) (idle : before.draw = .idle) :
      Stepped before ledger (.beginDraw window) (before.beginDraw window)
        { ledger with shown := Function.update ledger.shown window [] }
  | record {window : W} {after : EntityTracking E V W} (finished : before.draw = .finished window)
      (draw : after.draw = .idle) (calls : after.calls = before.calls)
      (nextRender : after.nextRender = before.nextRender)
      (books : SameBooks (before.recordEntitiesAccessed window before.accessedEntities) after)
      (states : ∀ property, before.EveryState property → after.EveryState property) :
      Stepped before ledger .recordEntitiesAccessed after ledger
  /-- A render begins. -/
  | begins {event : TrackingEvent E V W} {window : W} {after : EntityTracking E V W}
      {call : ViewCall E V} (drawing : before.draw = .drawing window)
      (draw : after.draw = .drawing window)
      (accessed : after.accessedEntities = before.accessedEntities)
      (calls : after.calls = call :: before.calls) (new : call.render = before.nextRender)
      (starts : ∀ render view accessedEntitiesStart prepaintStart refreshing,
        call = .prepainting render view accessedEntitiesStart prepaintStart refreshing →
          accessedEntitiesStart = before.accessedEntities)
      (nextRender : after.nextRender = before.nextRender + 1) (books : SameBooks before after)
      (states : ∀ property, before.EveryState property → after.EveryState property) :
      Stepped before ledger event after
        (ledger.place before.calls window [before.nextRender])
  | reusePrepaint {view : V} {window : W} {state : AnyViewState E} {after : EntityTracking E V W}
      (drawing : before.draw = .drawing window) (draw : after.draw = .drawing window)
      (reuses : before.reusePrepaint window view = some (state, after))
      (accessed : after.accessedEntities =
        (before.extendAccessed state.accessedEntities).accessedEntities)
      (calls : after.calls = before.calls) (nextRender : after.nextRender = before.nextRender)
      (books : SameBooks before after)
      (states : ∀ property, before.EveryState property →
        property state.render state.accessedEntities ∧ after.EveryState property) :
      Stepped before ledger (.reusePrepaint view) after
        (ledger.place before.calls window (state.render :: ledger.inside state.render))
  /-- The prepaint of a cached view ends. -/
  | endPrepaint {window : W} {render : Nat} {view : V} {accessedEntitiesStart : E → Bool}
      {prepaintStart : Nat} {refreshing : Bool} {after : EntityTracking E V W}
      (drawing : before.draw = .drawing window) (draw : after.draw = .drawing window)
      (calls : before.calls =
        .prepainting render view accessedEntitiesStart prepaintStart refreshing :: after.calls)
      (accessed : after.accessedEntities = before.accessedEntities)
      (nextRender : after.nextRender = before.nextRender) (books : SameBooks before after)
      (states : ∀ property, before.EveryState property →
        property render (entitiesAccessedInCallback accessedEntitiesStart before.accessedEntities) →
          after.EveryState property) :
      Stepped before ledger .endPrepaint after ledger
  /-- Nothing is noted, and no prepaint of a cached view begins. -/
  | quiet {event : TrackingEvent E V W} {after : EntityTracking E V W}
      (draw : after.draw = before.draw ∨
        (∃ window, before.draw = .drawing window ∧ after.draw = .finished window) ∧
          after.calls = [])
      (calls : ∀ call ∈ after.calls, call ∈ before.calls ∨
        (∃ render, call = .rendering render ∧ before.firstRender ≤ render ∧
            render < before.nextRender) ∨
          ∃ view state paintStart refreshing, call = .painting view state paintStart refreshing ∧
            before.firstRender ≤ state.render)
      (unlessDrawing : (∀ window, before.draw ≠ .drawing window) → after.calls = before.calls)
      (accessed : after.accessedEntities = before.accessedEntities)
      (nextRender : after.nextRender = before.nextRender) (books : SameBooks before after)
      (states : ∀ property, before.EveryState property → after.EveryState property) :
      Stepped before ledger event after ledger

omit [DecidableEq E] [DecidableEq V] in
/-- The states of one window change, and the calls. -/
theorem everyState_setWindow {self after : EntityTracking E V W} {window : W}
    {viewWindow : ViewWindow E V} {property : Nat → (E → Bool) → Prop}
    (states : self.EveryState property)
    (windows : after.windows = Function.update self.windows window viewWindow)
    (ofWindow : viewWindow.elementStates.Forall fun _ state =>
      property state.render state.accessedEntities)
    (ofCalls : ∀ view state paintStart refreshing,
      .painting view state paintStart refreshing ∈ after.calls →
        property state.render state.accessedEntities) : after.EveryState property := by
  refine ⟨fun other => ?_, ofCalls⟩
  rw [windows]
  by_cases same : other = window
  · subst same
    rwa [Function.update_self]
  · rw [Function.update_of_ne same]
    exact states.1 other

theorem stepped_beginPrepaint (self : EntityTracking E V W) (ledger : ReadLedger E W)
    {window : W} (drawing : self.draw = .drawing window) (view : V)
    (event : TrackingEvent E V W) :
    Stepped self ledger event (self.beginPrepaint window view)
      (ledger.place self.calls window [self.nextRender]) := by
  refine .begins drawing drawing rfl rfl rfl ?_ rfl ⟨rfl, rfl, rfl⟩ ?_
  · rintro render other start prepaintStart refreshing ⟨⟩
    rfl
  · intro property states
    apply everyState_setWindow states rfl ((states.1 window).beginAccess view).2
    intro other state paintStart refreshing member
    rcases List.mem_cons.mp member with ⟨⟨⟩⟩ | old
    exact states.2 other state paintStart refreshing old

theorem stepped_endPrepaint {self next : EntityTracking E V W} (ledger : ReadLedger E W)
    {window : W} (drawing : self.draw = .drawing window) (ends : self.endPrepaint window = some next) :
    Stepped self ledger .endPrepaint next ledger := by
  unfold endPrepaint at ends
  split at ends
  · rename_i render view start prepaintStart refreshing calls waiting
    rcases Option.bind_eq_some_iff.mp ends with ⟨elementStates, ended, ⟨⟩⟩
    refine .endPrepaint drawing drawing waiting rfl rfl ⟨rfl, rfl, rfl⟩ ?_
    intro property states new
    apply everyState_setWindow states rfl ((states.1 window).endAccess ended new)
    intro other state paintStart refreshing member
    exact states.2 other state paintStart refreshing (waiting ▸ List.mem_cons_of_mem _ member)
  · cases ends

theorem stepped_reusePrepaint {self next : EntityTracking E V W} (ledger : ReadLedger E W)
    {window : W} (drawing : self.draw = .drawing window) {view : V} {state : AnyViewState E}
    (reuses : self.reusePrepaint window view = some (state, next)) :
    Stepped self ledger (.reusePrepaint view) next
      (ledger.place self.calls window (state.render :: ledger.inside state.render)) := by
  have reused := reuses
  unfold reusePrepaint at reused
  rcases Option.bind_eq_some_iff.mp reused with ⟨found, isFound, rest⟩
  rw [Option.ite_none_left_eq_some] at rest
  rcases Option.bind_eq_some_iff.mp rest.2 with ⟨copied, copies, rest⟩
  rcases Option.bind_eq_some_iff.mp rest with ⟨elementStates, ended, ⟨⟩⟩
  refine .reusePrepaint drawing drawing reuses rfl rfl rfl ⟨rfl, rfl, rfl⟩ ?_
  intro property states
  have begun := (states.1 window).beginAccess view
  have holds := begun.1 state isFound
  refine ⟨holds, ?_⟩
  have after := (begun.2.reuse copies).endAccess ended holds
  exact everyState_setWindow states rfl after states.2

theorem stepped_beginPaint {self next : EntityTracking E V W} (ledger : ReadLedger E W)
    {window : W} (drawing : self.draw = .drawing window) {view : V}
    (begins : self.beginPaint window view = some next) (event : TrackingEvent E V W) :
    Stepped self ledger event next ledger := by
  unfold beginPaint at begins
  rcases Option.bind_eq_some_iff.mp begins with ⟨state, isFound, rest⟩
  rw [Option.ite_none_right_eq_some] at rest
  rcases rest with ⟨isNew, ⟨⟩⟩
  refine .quiet (Or.inl rfl) ?_ (fun idle => absurd drawing (idle window)) rfl rfl
    ⟨rfl, rfl, rfl⟩ ?_
  · intro call member
    rcases List.mem_cons.mp member with rfl | old
    · exact Or.inr (Or.inr ⟨_, _, _, _, rfl, isNew⟩)
    · exact Or.inl old
  · intro property states
    have begun := (states.1 window).beginAccess view
    apply everyState_setWindow states rfl begun.2
    intro other held paintStart refreshing member
    rcases List.mem_cons.mp member with isFirst | old
    · rcases isFirst with ⟨⟩
      exact begun.1 state isFound
    · exact states.2 other held paintStart refreshing old

theorem stepped_endPaint {self next : EntityTracking E V W} (ledger : ReadLedger E W)
    {window : W} (drawing : self.draw = .drawing window) (ends : self.endPaint window = some next)
    (event : TrackingEvent E V W) : Stepped self ledger event next ledger := by
  unfold endPaint at ends
  split at ends
  · rename_i view state paintStart refreshing calls waiting
    rcases Option.bind_eq_some_iff.mp ends with ⟨elementStates, ended, ⟨⟩⟩
    refine .quiet (Or.inl rfl) ?_ (fun idle => absurd drawing (idle window)) rfl rfl
      ⟨rfl, rfl, rfl⟩ ?_
    · exact fun call member => Or.inl (waiting ▸ List.mem_cons_of_mem _ member)
    · intro property states
      have held := states.2 view state paintStart refreshing (waiting ▸ List.mem_cons_self)
      have after : elementStates.Forall fun _ state =>
          property state.render state.accessedEntities := (states.1 window).endAccess ended held
      apply everyState_setWindow states rfl after
      intro other held paintStart refreshing member
      exact states.2 other held paintStart refreshing (waiting ▸ List.mem_cons_of_mem _ member)
  · cases ends

theorem stepped_reusePaint {self next : EntityTracking E V W} (ledger : ReadLedger E W)
    {window : W} (drawing : self.draw = .drawing window) {view : V}
    (reuses : self.reusePaint window view = some next) (event : TrackingEvent E V W) :
    Stepped self ledger event next ledger := by
  unfold reusePaint at reuses
  rcases Option.bind_eq_some_iff.mp reuses with ⟨state, isFound, rest⟩
  rw [Option.ite_none_left_eq_some] at rest
  rcases Option.bind_eq_some_iff.mp rest.2 with ⟨copied, copies, rest⟩
  rcases Option.bind_eq_some_iff.mp rest with ⟨elementStates, ended, ⟨⟩⟩
  refine .quiet (Or.inl rfl) (fun call member => Or.inl member)
    (fun idle => absurd drawing (idle window)) rfl rfl ⟨rfl, rfl, rfl⟩ ?_
  intro property states
  have begun := (states.1 window).beginAccess view
  have after := (begun.2.reuse copies).endAccess ended (begun.1 state isFound)
  exact everyState_setWindow states rfl after states.2

theorem stepped_finish {self next : EntityTracking E V W} (ledger : ReadLedger E W)
    {window : W} (drawing : self.draw = .drawing window) (done : self.calls = [])
    (finishes : self.finish window = some next) (event : TrackingEvent E V W) :
    Stepped self ledger event next ledger := by
  rcases Option.bind_eq_some_iff.mp finishes with ⟨elementStates, finished, ⟨⟩⟩
  refine .quiet (Or.inr ⟨⟨window, drawing, rfl⟩, done⟩) (fun call member => Or.inl member)
    (fun _ => rfl) rfl rfl ⟨rfl, rfl, rfl⟩ ?_
  intro property states
  exact everyState_setWindow states rfl ((states.1 window).finish finished) states.2

theorem stepped_of_observe {self next : EntityTracking E V W} {ledger nextLedger : ReadLedger E W}
    {event : TrackingEvent E V W} (observes : observe (self, ledger) event = some (next, nextLedger)) :
    Stepped self ledger event next nextLedger := by
  rcases Option.map_eq_some_iff.mp observes with ⟨_, steps, same⟩
  rcases same with ⟨⟩
  cases event with
  | access entity =>
      rcases steps with ⟨⟩
      exact .access entity
  | beginDraw window =>
      simp only [step, Option.ite_none_right_eq_some, Option.some.injEq] at steps
      rcases steps with ⟨idle, rfl⟩
      exact .beginDraw window idle
  | refresh window =>
      simp only [step, Option.ite_none_right_eq_some, Option.some.injEq] at steps
      rcases steps with ⟨idle, rfl⟩
      have ledgerSame : ledger.step self (.refresh window) = ledger := by
        simp [ReadLedger.step, idle]
      rw [ledgerSame]
      refine .quiet (Or.inl rfl) (fun call member => Or.inl member) (fun _ => rfl) rfl rfl
        ⟨rfl, rfl, rfl⟩ ?_
      intro property states
      exact everyState_setWindow states rfl (states.1 window) states.2
  | recordEntitiesAccessed =>
      simp only [step] at steps
      split at steps
      · rename_i window finished
        rcases steps with ⟨⟩
        have ledgerSame : ledger.step self .recordEntitiesAccessed = ledger := by
          simp [ReadLedger.step, finished]
        rw [ledgerSame]
        refine .record finished rfl rfl rfl ⟨rfl, rfl, rfl⟩ ?_
        intro property states
        exact everyState_setWindow states rfl (states.1 window) states.2
      · cases steps
  | beginRender =>
      simp only [step] at steps
      split at steps
      · rename_i window drawing
        rcases steps with ⟨⟩
        simp only [ReadLedger.step, drawing]
        refine .begins drawing drawing rfl rfl rfl (fun _ _ _ _ _ => nofun) rfl ⟨rfl, rfl, rfl⟩ ?_
        intro property states
        refine ⟨states.1, fun view state paintStart refreshing member => ?_⟩
        rcases List.mem_cons.mp member with ⟨⟨⟩⟩ | old
        exact states.2 view state paintStart refreshing old
      · cases steps
  | resumeRender render =>
      simp only [step] at steps
      split at steps
      · rename_i window drawing
        simp only [Option.ite_none_right_eq_some, Option.some.injEq] at steps
        rcases steps with ⟨⟨isNew, below⟩, rfl⟩
        simp only [ReadLedger.step, drawing]
        refine .quiet (Or.inl drawing.symm) ?_ (fun idle => absurd drawing (idle window)) rfl rfl
          ⟨rfl, rfl, rfl⟩ ?_
        · intro call member
          rcases List.mem_cons.mp member with rfl | old
          · exact Or.inr (Or.inl ⟨render, rfl, isNew, below⟩)
          · exact Or.inl old
        · intro property states
          refine ⟨states.1, fun view state paintStart refreshing member => ?_⟩
          rcases List.mem_cons.mp member with ⟨⟨⟩⟩ | old
          exact states.2 view state paintStart refreshing old
      · cases steps
  | endRender =>
      simp only [step] at steps
      split at steps
      · rename_i window drawing
        split at steps
        · rename_i render calls waiting
          rcases steps with ⟨⟩
          simp only [ReadLedger.step, drawing]
          refine .quiet (Or.inl drawing.symm) ?_ (fun idle => absurd drawing (idle window)) rfl rfl
            ⟨rfl, rfl, rfl⟩ ?_
          · exact fun call member => Or.inl (waiting ▸ List.mem_cons_of_mem _ member)
          · intro property states
            refine ⟨states.1, fun view state paintStart refreshing member => ?_⟩
            exact states.2 view state paintStart refreshing (waiting ▸ List.mem_cons_of_mem _ member)
        · cases steps
      · cases steps
  | beginPrepaint view =>
      simp only [step] at steps
      split at steps
      · rename_i window drawing
        rcases steps with ⟨⟩
        simp only [ReadLedger.step, drawing]
        exact stepped_beginPrepaint self ledger drawing view _
      · cases steps
  | endPrepaint =>
      simp only [step] at steps
      split at steps
      · rename_i window drawing
        simp only [ReadLedger.step, drawing]
        exact stepped_endPrepaint ledger drawing steps
      · cases steps
  | reusePrepaint view =>
      simp only [step] at steps
      split at steps
      · rename_i window drawing
        rcases Option.map_eq_some_iff.mp steps with ⟨⟨state, _⟩, reuses, rfl⟩
        simp only [ReadLedger.step, drawing, reuses]
        exact stepped_reusePrepaint ledger drawing reuses
      · cases steps
  | beginPaint view =>
      simp only [step] at steps
      split at steps
      · rename_i window drawing
        simp only [ReadLedger.step, drawing]
        exact stepped_beginPaint ledger drawing steps _
      · cases steps
  | endPaint =>
      simp only [step] at steps
      split at steps
      · rename_i window drawing
        simp only [ReadLedger.step, drawing]
        exact stepped_endPaint ledger drawing steps _
      · cases steps
  | reusePaint view =>
      simp only [step] at steps
      split at steps
      · rename_i window drawing
        simp only [ReadLedger.step, drawing]
        exact stepped_reusePaint ledger drawing steps _
      · cases steps
  | finish =>
      simp only [step] at steps
      split at steps
      · rename_i window drawing
        rw [Option.ite_none_right_eq_some] at steps
        simp only [ReadLedger.step, drawing]
        exact stepped_finish ledger drawing steps.1 steps.2 _
      · cases steps

end EntityTracking

end Gpui
