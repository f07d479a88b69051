import Gpui.App.Steps

/-!
# No notification is lost

The set of pending notifications holds the emitters in the queue, so a notification
that is not pushed again is still to come.  When it is applied, its observers are
taken as they are then; whoever was active when it was pushed and has not left is
among them, and waits there for its call.
-/

namespace Gpui

open Gpui.Library

variable {E T V W C : Type} [DecidableEq E]

namespace App

/-! ## Invariants -/

/-- A flush is at a point, and a pass over the observers is under way only where the
flush notifies. -/
structure WellFormed (app : App E T V W C) : Prop where
  flushing : app.flushingEffects = app.flush.isSome
  deduplicated : app.Deduplicated
  notifying : ∀ {emitter}, app.flush = some (.notifying emitter) →
    ∃ pass, app.observers.passes = [pass] ∧ pass.emitter = emitter
  between : app.flush.bind FlushPoint.emitter? = none → app.observers.passes = []

omit [DecidableEq E] in
theorem wellFormed_new : WellFormed (new : App E T V W C) where
  flushing := rfl
  deduplicated := ⟨List.nodup_nil, fun _ => ⟨nofun, nofun⟩⟩
  notifying := nofun
  between := fun _ => rfl

omit [DecidableEq E] in
theorem Deduplicated.pop {self next : App E T V W C} (deduplicated : self.Deduplicated)
    {effect : Effect E T V W C}
    (queue : self.pendingEffects = effect :: next.pendingEffects)
    (notifies : effect.emitter? = none)
    (pending : next.pendingNotifications = self.pendingNotifications) : next.Deduplicated := by
  have same : self.notified = next.notified := by
    rw [notified, queue, List.filterMap_cons_none notifies, notified]
  exact ⟨same ▸ deduplicated.distinct, fun emitter => by
    rw [pending, ← same, deduplicated.pending emitter]⟩

/-- The popped emitter is nowhere else in the queue, so it leaves the set too. -/
theorem Deduplicated.popNotify {self next : App E T V W C} (deduplicated : self.Deduplicated)
    {emitter : E} (queue : self.pendingEffects = .notify emitter :: next.pendingEffects)
    (pending : next.pendingNotifications =
      Function.update self.pendingNotifications emitter false) : next.Deduplicated := by
  have same : self.notified = emitter :: next.notified := by
    rw [notified, queue]
    rfl
  have distinct := List.nodup_cons.mp (same ▸ deduplicated.distinct)
  refine ⟨distinct.2, fun other => ?_⟩
  rw [pending]
  by_cases isPopped : other = emitter
  · subst isPopped
    simp [distinct.1]
  · rw [Function.update_of_ne isPopped, deduplicated.pending other, same]
    simp [isPopped]

theorem WellFormed.step {self next : App E T V W C} {event : AppEvent E T V W C}
    (wellFormed : self.WellFormed) (stepped : Stepped self event next) : next.WellFormed := by
  rcases wellFormed with ⟨flushing, deduplicated, notifying, between⟩
  have stillDeduplicated {next : App E T V W C} (effects : next.pendingEffects = self.pendingEffects)
      (pending : next.pendingNotifications = self.pendingNotifications) : next.Deduplicated := by
    have same : next.notified = self.notified := by rw [notified, effects, notified]
    exact ⟨same ▸ deduplicated.distinct, fun emitter => by
      rw [pending, same, deduplicated.pending emitter]⟩
  -- where the passes and the point of the flush stay as they are
  have unchanged {next : App E T V W C} (sameFlushing : next.flushingEffects = self.flushingEffects)
      (sameFlush : next.flush = self.flush)
      (samePasses : next.observers.passes = self.observers.passes)
      (stillDeduplicated : next.Deduplicated) : next.WellFormed := by
    refine ⟨?_, stillDeduplicated, ?_, ?_⟩
    · rw [sameFlushing, sameFlush, flushing]
    · rw [sameFlush, samePasses]
      exact notifying
    · rw [sameFlush, samePasses]
      exact between
  -- where the flush goes from one point to another and notifies at neither
  have moved {next : App E T V W C} {before after : FlushPoint E}
      (isFlushing : self.flush = some before) (notBefore : before.emitter? = none)
      (nowAt : next.flush = some after) (notAfter : after.emitter? = none)
      (sameFlushing : next.flushingEffects = self.flushingEffects)
      (samePasses : next.observers.passes = self.observers.passes)
      (stillDeduplicated : next.Deduplicated) : next.WellFormed := by
    refine ⟨?_, stillDeduplicated, ?_, fun _ => ?_⟩
    · rw [sameFlushing, nowAt, flushing, isFlushing]
      rfl
    · intro emitter isNotifying
      rw [nowAt] at isNotifying
      exact absurd (Option.some.inj isNotifying) (FlushPoint.ne_notifying notAfter emitter)
    · rw [samePasses]
      apply between
      rw [isFlushing]
      exact notBefore
  -- where the pass of the notification goes on
  have goesOn {emitter : E} {observers : SubscriberSet E C} {pass later : Pass E C}
      {passes : List (Pass E C)} (isNotifying : self.flush = some (.notifying emitter))
      (top : self.observers.passes = pass :: passes) (now : observers.passes = later :: passes)
      (same : later.emitter = pass.emitter) : WellFormed { self with observers } := by
    rcases notifying isNotifying with ⟨only, isOnly, ours⟩
    rcases isOnly.symm.trans top with ⟨⟩
    refine ⟨flushing, stillDeduplicated rfl rfl, ?_, ?_⟩
    · intro other isOther
      rcases isNotifying.symm.trans isOther with ⟨⟩
      exact ⟨later, now, same.trans ours⟩
    · intro quiet
      rw [isNotifying] at quiet
      cases quiet
  cases stepped with
  | code _ _ grown =>
      exact unchanged grown.flushing grown.flush (by rw [grown.observers])
        (grown.deduplicated deduplicated)
  | newObserver stepped =>
      cases stepped with
      | insert =>
          refine unchanged rfl rfl rfl ?_
          apply (grown_pushBack _ rfl).deduplicated
          exact stillDeduplicated rfl rfl
  | detach stepped =>
      cases stepped with
      | detach _ => exact unchanged rfl rfl rfl (stillDeduplicated rfl rfl)
  | dropSubscription stepped =>
      cases stepped with
      | drop _ => exact unchanged rfl rfl rfl (stillDeduplicated rfl rfl)
  | dropEntity => exact unchanged rfl rfl rfl (stillDeduplicated rfl rfl)
  | beginFlush idle =>
      have notFlushing : self.flush = none := by
        rw [idle] at flushing
        exact Option.not_isSome_iff_eq_none.mp (by rw [← flushing]; exact Bool.false_ne_true)
      refine ⟨rfl, stillDeduplicated rfl rfl, ?_, fun _ => between (by rw [notFlushing]; rfl)⟩
      intro emitter isNotifying
      cases isNotifying
  | takeDropped releasing =>
      refine moved releasing rfl rfl ?_ rfl rfl (stillDeduplicated rfl rfl)
      split
      · rfl
      · rfl
  | release releasing stepped =>
      cases stepped with
      | remove => exact moved releasing rfl rfl rfl rfl rfl (stillDeduplicated rfl rfl)
  | released releasing =>
      exact moved releasing rfl rfl rfl rfl rfl (stillDeduplicated rfl rfl)
  | goOn _ _ isFlushing _ notBefore notAfter =>
      exact moved isFlushing notBefore rfl notAfter rfl rfl (stillDeduplicated rfl rfl)
  | applyNotify popping queue stepped =>
      cases stepped with
      | beginRetain took =>
          refine ⟨?_, deduplicated.popNotify queue rfl, ?_, ?_⟩
          · exact flushing.trans (by rw [popping]; rfl)
          · rintro _ ⟨⟩
            refine ⟨_, congrArg (List.cons _) (between ?_), rfl⟩
            rw [popping]
            rfl
          · intro quiet
            cases quiet
  | applyNotifyNone popping queue stepped =>
      cases stepped with
      | emptyRetain _ =>
          exact moved popping rfl rfl rfl rfl rfl (deduplicated.popNotify queue rfl)
  | callObserver isNotifying stepped =>
      cases stepped with
      | call top _ _ _ => exact goesOn isNotifying top rfl rfl
  | skipObserver isNotifying stepped =>
      cases stepped with
      | skip top _ _ _ => exact goesOn isNotifying top rfl rfl
  | observerReturns isNotifying stepped =>
      cases stepped with
      | finishCall top _ => exact goesOn isNotifying top rfl rfl
  | endNotify isNotifying stepped =>
      rcases notifying isNotifying with ⟨only, passes, ours⟩
      cases stepped with
      | endRetain top _ _ =>
          rcases passes.symm.trans top with ⟨⟩
          refine ⟨?_, stillDeduplicated rfl rfl, ?_, fun _ => rfl⟩
          · exact flushing.trans (by rw [isNotifying]; rfl)
          · intro emitter stillNotifying
            cases stillNotifying
  | activateObserver popping queue stepped =>
      cases stepped with
      | activate _ => exact moved popping rfl rfl rfl rfl rfl (deduplicated.pop queue rfl rfl)
  | applyEffect popping queue notifies =>
      exact moved popping rfl rfl rfl rfl rfl (deduplicated.pop queue notifies rfl)
  | finish _ _ isFlushing _ notNotifying _ =>
      refine ⟨rfl, stillDeduplicated rfl rfl, ?_, fun _ => between ?_⟩
      · intro emitter isNotifying
        cases isNotifying
      · rw [isFlushing]
        exact notNotifying

/-- The observers step with the labels that are about them. -/
theorem Stepped.observed {self next : App E T V W C} {event : AppEvent E T V W C}
    (stepped : Stepped self event next) :
    match event.observed with
    | none => next.observers = self.observers
    | some observed => SubscriberSet.Stepped self.observers observed next.observers := by
  cases stepped with
  | code quiet _ grown =>
      rw [quiet]
      exact grown.observers
  | goOn quiet _ _ _ _ _ => rw [quiet]
  | finish quiet _ _ _ _ _ =>
      rw [quiet]
      rfl
  | newObserver stepped => exact stepped
  | detach stepped => exact stepped
  | dropSubscription stepped => exact stepped
  | dropEntity => rfl
  | beginFlush _ => rfl
  | takeDropped _ => rfl
  | released _ => rfl
  | release _ stepped => exact stepped
  | applyNotify _ _ stepped => exact stepped
  | applyNotifyNone _ _ stepped => exact stepped
  | callObserver _ stepped => exact stepped
  | skipObserver _ stepped => exact stepped
  | observerReturns _ stepped => exact stepped
  | endNotify _ stepped => exact stepped
  | activateObserver _ _ stepped => exact stepped
  | applyEffect _ _ _ => rfl

/-! ## Waiting for a call -/

/-- The observer waits for a notification that is in the queue, or for its call in the
pass that has begun. -/
def Waiting (self : App E T V W C) (emitter : E) (id : Nat) : Prop :=
  .notify emitter ∈ self.pendingEffects ∨
    self.flush = some (.notifying emitter) ∧
      ∃ pass ∈ self.observers.passes, ∃ callback, (id, callback) ∈ pass.rest

/-- Until it is called, an observer that is active and in the set goes on waiting. -/
theorem Waiting.step {self next : App E T V W C} {event : AppEvent E T V W C} {emitter : E}
    {id : Nat} (waiting : self.Waiting emitter id) (wellFormed : self.WellFormed)
    (isActive : id ∈ self.observers.active) (located : self.observers.Located emitter id)
    (stepped : Stepped self event next) (notCalled : ∀ pass, event ≠ .callObserver pass id) :
    next.Waiting emitter id := by
  -- where neither the queue nor the pass changes
  have unchanged {next : App E T V W C} (effects : self.pendingEffects ⊆ next.pendingEffects)
      (sameFlush : next.flush = self.flush)
      (samePasses : next.observers.passes = self.observers.passes) : next.Waiting emitter id := by
    rcases waiting with queued | ⟨notifying, pass, under, unvisited⟩
    · exact Or.inl (effects queued)
    · exact Or.inr ⟨sameFlush.trans notifying, pass, samePasses ▸ under, unvisited⟩
  -- where the flush is not in a pass, the notification is still in the queue
  have queued {point : FlushPoint E} (flushing : self.flush = some point)
      (notNotifying : point.emitter? = none) :
      .notify emitter ∈ self.pendingEffects := by
    rcases waiting with queued | ⟨notifying, -⟩
    · exact queued
    · rw [flushing] at notifying
      exact absurd (Option.some.inj notifying) (FlushPoint.ne_notifying notNotifying emitter)
  have queuedBehind {effect : Effect E T V W C} {rest : List (Effect E T V W C)}
      (popping : self.flush = some .popping) (queue : self.pendingEffects = effect :: rest)
      (other : effect ≠ .notify emitter) : .notify emitter ∈ rest := by
    rcases List.mem_cons.mp (queue ▸ queued popping rfl) with same | later
    · exact absurd same.symm other
    · exact later
  -- where the pass goes on, past another observer
  have goesOn {notified : E} {observers : SubscriberSet E C} {pass later : Pass E C}
      {passes : List (Pass E C)} (notifying : self.flush = some (.notifying notified))
      (top : self.observers.passes = pass :: passes) (now : observers.passes = later :: passes)
      (rest : ∀ callback, (id, callback) ∈ pass.rest → (id, callback) ∈ later.rest) :
      Waiting { self with observers } emitter id := by
    rcases waiting with queued | ⟨isNotifying, waitsIn, under, callback, unvisited⟩
    · exact Or.inl queued
    · rcases wellFormed.notifying notifying with ⟨only, isOnly, -⟩
      rcases isOnly.symm.trans top with ⟨⟩
      rw [isOnly, List.mem_singleton] at under
      subst under
      exact Or.inr ⟨isNotifying, later, now ▸ List.mem_cons_self, callback, rest callback unvisited⟩
  -- where no pass is under way, the observer is in the map of its emitter
  have registered (popping : self.flush = some .popping) :
      ∃ callback, self.observers.state.Registered emitter id callback := by
    rcases located with ⟨callback, registered | ⟨pass, under, -⟩⟩
    · exact ⟨callback, registered⟩
    · rw [wellFormed.between (by rw [popping]; rfl)] at under
      cases under
  cases stepped with
  | code _ _ grown => exact unchanged grown.effects grown.flush (by rw [grown.observers])
  | newObserver stepped =>
      cases stepped with
      | insert => exact unchanged (List.subset_append_left _ _) rfl rfl
  | detach stepped =>
      cases stepped with
      | detach _ => exact unchanged (List.Subset.refl _) rfl rfl
  | dropSubscription stepped =>
      cases stepped with
      | drop _ => exact unchanged (List.Subset.refl _) rfl rfl
  | dropEntity => exact unchanged (List.Subset.refl _) rfl rfl
  | beginFlush idle =>
      rcases waiting with queued | ⟨notifying, -⟩
      · exact Or.inl queued
      · have flushing := wellFormed.flushing
        rw [idle, notifying] at flushing
        cases flushing
  | takeDropped releasing => exact Or.inl (queued releasing rfl)
  | released releasing => exact Or.inl (queued releasing rfl)
  | release releasing _ => exact Or.inl (queued releasing rfl)
  | goOn _ _ flushing _ notBefore _ => exact Or.inl (queued flushing notBefore)
  | @applyNotify notified _ _ _ popping queue stepped =>
      by_cases same : notified = emitter
      · subst same
        rcases registered popping with ⟨callback, isRegistered⟩
        cases stepped with
        | beginRetain took =>
            rcases SubscriberSetState.take_eq_some took with ⟨rfl, -⟩
            exact Or.inr ⟨rfl, _, List.mem_cons_self, callback,
              OrderedMap.get?_eq_some_iff.mp isRegistered⟩
      · apply Or.inl
        apply queuedBehind popping queue
        rintro ⟨⟩
        exact same rfl
  | @applyNotifyNone notified _ _ popping queue stepped =>
      by_cases same : notified = emitter
      · subst same
        rcases registered popping with ⟨callback, isRegistered⟩
        cases stepped with
        | emptyRetain nothing =>
            exact absurd nothing (SubscriberSetState.take_ne_none isRegistered)
      · apply Or.inl
        apply queuedBehind popping queue
        rintro ⟨⟩
        exact same rfl
  | @callObserver _ pass called _ notifying stepped =>
      cases stepped with
      | call top _ isNext _ =>
          apply goesOn notifying top rfl
          intro callback unvisited
          rcases List.mem_cons.mp (isNext ▸ unvisited) with isFirst | later
          · rcases isFirst with ⟨⟩
            exact absurd rfl (notCalled _)
          · exact later
  | skipObserver notifying stepped =>
      cases stepped with
      | skip top _ isNext inactive =>
          apply goesOn notifying top rfl
          intro callback unvisited
          rcases List.mem_cons.mp (isNext ▸ unvisited) with isFirst | later
          · rcases isFirst with ⟨⟩
            exact absurd isActive inactive
          · exact later
  | observerReturns notifying stepped =>
      cases stepped with
      | finishCall top _ => exact goesOn notifying top rfl fun _ unvisited => unvisited
  | endNotify notifying stepped =>
      rcases waiting with queued | ⟨-, waitsIn, under, callback, unvisited⟩
      · exact Or.inl queued
      · rcases wellFormed.notifying notifying with ⟨only, isOnly, -⟩
        cases stepped with
        | endRetain top _ done =>
            rcases isOnly.symm.trans top with ⟨⟩
            rw [isOnly, List.mem_singleton] at under
            rw [under, done] at unvisited
            cases unvisited
  | activateObserver popping queue _ => exact Or.inl (queuedBehind popping queue nofun)
  | applyEffect popping queue notifies =>
      apply Or.inl
      apply queuedBehind popping queue
      rintro rfl
      cases notifies
  | finish _ _ flushing _ notBefore _ => exact Or.inl (queued flushing notBefore)

/-! ## Releasing -/

/-- A dropped entity has been released, or waits to be taken, or waits among those taken. -/
def Releasing (entity : E) (events : List (AppEvent E T V W C)) (reached : App E T V W C) : Prop :=
  .release entity ∈ events ∨
    (.takeDropped ∉ events ∧ entity ∈ reached.droppedEntityIds ∧ reached.entities entity = true) ∨
    ∃ point, reached.flush = some point ∧ entity ∈ point.released

theorem Releasing.step {entity : E} {events : List (AppEvent E T V W C)}
    {event : AppEvent E T V W C} {self next : App E T V W C}
    (releasing : Releasing entity events self) (wellFormed : self.WellFormed)
    (stepped : Stepped self event next) : Releasing entity (events ++ [event]) next := by
  rcases releasing with released | waits
  · exact Or.inl (List.mem_append_left _ released)
  -- where nothing is taken
  have unchanged (notTaken : event ≠ .takeDropped) (sameFlush : next.flush = self.flush)
      (dropped : self.droppedEntityIds ⊆ next.droppedEntityIds)
      (entities : self.entities entity = true → next.entities entity = true) :
      Releasing entity (events ++ [event]) next := by
    rcases waits with ⟨untaken, isDropped, isThere⟩ | ⟨point, flushing, taken⟩
    · refine Or.inr (Or.inl ⟨?_, dropped isDropped, entities isThere⟩)
      rintro member
      rcases mem_snoc.mp member with before | isLast
      · exact untaken before
      · exact notTaken isLast
    · exact Or.inr (Or.inr ⟨point, sameFlush.trans flushing, taken⟩)
  -- where the flush is at a point without taken entities
  have untaken (notReleasing : ∀ point, self.flush = some point → point.released = [])
      (notTaken : event ≠ .takeDropped)
      (dropped : next.droppedEntityIds = self.droppedEntityIds)
      (entities : next.entities = self.entities) : Releasing entity (events ++ [event]) next := by
    rcases waits with ⟨untaken, isDropped, isThere⟩ | ⟨point, flushing, taken⟩
    · refine Or.inr (Or.inl ⟨?_, dropped ▸ isDropped, entities ▸ isThere⟩)
      rintro member
      rcases mem_snoc.mp member with before | isLast
      · exact untaken before
      · exact notTaken isLast
    · rw [notReleasing point flushing] at taken
      cases taken
  have at_point {before : FlushPoint E} (flushing : self.flush = some before)
      (notReleasing : before.released = []) :
      ∀ point, self.flush = some point → point.released = [] := by
    intro point same
    rcases flushing.symm.trans same with ⟨⟩
    exact notReleasing
  cases stepped with
  | code _ keeps grown =>
      exact unchanged keeps grown.flush (grown.dropped ▸ List.Subset.refl _) (grown.entities entity)
  | newObserver _ => exact unchanged nofun rfl (List.Subset.refl _) id
  | detach _ => exact unchanged nofun rfl (List.Subset.refl _) id
  | dropSubscription _ => exact unchanged nofun rfl (List.Subset.refl _) id
  | dropEntity => exact unchanged nofun rfl (List.subset_append_left _ _) id
  | beginFlush idle =>
      refine untaken ?_ nofun rfl rfl
      intro point flushing
      have isFlushing := wellFormed.flushing
      rw [idle, flushing] at isFlushing
      cases isFlushing
  | takeDropped flushing =>
      rcases waits with ⟨-, isDropped, isThere⟩ | ⟨point, atPoint, taken⟩
      · have took : entity ∈ self.takeDropped.1 := List.mem_filter.mpr ⟨isDropped, isThere⟩
        refine Or.inr (Or.inr ⟨_, rfl, ?_⟩)
        rw [if_neg (by simpa using List.ne_nil_of_mem took)]
        exact took
      · rcases flushing.symm.trans atPoint with ⟨⟩
        cases taken
  | @release other dropped _ flushing _ =>
      rcases waits with ⟨untaken, isDropped, isThere⟩ | ⟨point, atPoint, taken⟩
      · refine Or.inr (Or.inl ⟨?_, isDropped, isThere⟩)
        rintro member
        rcases mem_snoc.mp member with before | ⟨⟨⟩⟩
        exact untaken before
      · rcases flushing.symm.trans atPoint with ⟨⟩
        rcases List.mem_cons.mp taken with rfl | later
        · exact Or.inl (mem_snoc.mpr (Or.inr rfl))
        · exact Or.inr (Or.inr ⟨_, rfl, later⟩)
  | released flushing =>
      rcases waits with ⟨untaken, isDropped, isThere⟩ | ⟨point, atPoint, taken⟩
      · refine Or.inr (Or.inl ⟨?_, isDropped, isThere⟩)
        rintro member
        rcases mem_snoc.mp member with before | ⟨⟨⟩⟩
        exact untaken before
      · rcases flushing.symm.trans atPoint with ⟨⟩
        exact Or.inr (Or.inr ⟨_, rfl, taken⟩)
  | goOn _ keeps flushing notReleasing _ _ =>
      exact untaken (at_point flushing notReleasing) keeps rfl rfl
  | applyNotify popping _ _ => exact untaken (at_point popping rfl) nofun rfl rfl
  | applyNotifyNone popping _ _ => exact untaken (at_point popping rfl) nofun rfl rfl
  | callObserver _ _ => exact unchanged nofun rfl (List.Subset.refl _) id
  | skipObserver _ _ => exact unchanged nofun rfl (List.Subset.refl _) id
  | observerReturns _ _ => exact unchanged nofun rfl (List.Subset.refl _) id
  | endNotify notifying _ => exact untaken (at_point notifying rfl) nofun rfl rfl
  | activateObserver popping _ _ => exact untaken (at_point popping rfl) nofun rfl rfl
  | applyEffect popping _ _ => exact untaken (at_point popping rfl) nofun rfl rfl
  | finish _ keeps flushing notReleasing _ _ =>
      exact untaken (at_point flushing notReleasing) keeps rfl rfl

/-! ## Runs -/

variable [DecidableEq T] [DecidableEq W] {testSupport : Bool}

theorem wellFormed_of_run {first app : App E T V W C} {events : List (AppEvent E T V W C)}
    (run : Run (step testSupport) (fun _ _ => True) first events app)
    (wellFormed : first.WellFormed) : app.WellFormed :=
  run.invariant (fun _ app => app.WellFormed) wellFormed
    fun wellFormed _ steps => wellFormed.step (stepped_of_step steps)

/-- The labels about the observers are a run of the observers. -/
theorem observed_of_run {app : App E T V W C} {events : List (AppEvent E T V W C)}
    (run : Run (step testSupport) (fun _ _ => True) new events app) :
    Run SubscriberSet.step (fun _ _ => True) .new (events.filterMap AppEvent.observed)
      app.observers := by
  apply run.invariant (fun events app => Run SubscriberSet.step (fun _ _ => True) .new
    (events.filterMap AppEvent.observed) app.observers) .nil
  rintro events app event next observed _ steps
  have stepped := (stepped_of_step steps).observed
  rw [List.filterMap_append]
  cases look : event.observed with
  | none =>
      rw [look] at stepped
      simpa [look, stepped] using observed
  | some label =>
      rw [look] at stepped
      simpa [look] using observed.snoc trivial stepped.step

/-- An observer waits from the notification to its call. -/
theorem waiting_of_run {front back : List (AppEvent E T V W C)} {pushed : AppEvent E T V W C}
    {middle app : App E T V W C}
    (before : Run (step testSupport) (fun _ _ => True) new front middle)
    (run : Run (step testSupport) (fun _ _ => True) new (front ++ pushed :: back) app)
    {emitter : E} (pushes : middle.Pushes emitter pushed) {callback : C} {id : Nat}
    (inserted : .newObserver emitter callback id ∈ front) (activated : .activateObserver id ∈ front)
    (lives : SubscriberSet.Lives emitter callback id
      ((front ++ pushed :: back).filterMap AppEvent.observed))
    (notCalled : ∀ pass, .callObserver pass id ∉ back) : app.Waiting emitter id := by
  rcases run.split with ⟨other, after, again, -, steps, later⟩
  rcases before.unique again with rfl
  have wellFormed := wellFormed_of_run before wellFormed_new
  have queued : .notify emitter ∈ after.pendingEffects := by
    rcases queued_notify wellFormed.deduplicated pushes with ⟨rfl, queued⟩
    simp only [step, Option.ite_none_right_eq_some, Option.some.injEq] at steps
    exact steps.2 ▸ queued
  have invariant := later.invariant
    (fun events reached =>
      Run (step testSupport) (fun _ _ => True) after events reached ∧
        (SubscriberSet.Lives emitter callback id
            ((front ++ pushed :: events).filterMap AppEvent.observed) →
          (∀ pass, .callObserver pass id ∉ events) → reached.Waiting emitter id))
    ⟨.nil, fun _ _ => Or.inl queued⟩ ?_
  · exact invariant.2 lives notCalled
  rintro events reached event next ⟨run, waits⟩ _ steps
  refine ⟨run.snoc trivial steps, fun lives notCalled => ?_⟩
  have reachedRun := before.append (.cons trivial ‹_› run)
  have observed := observed_of_run reachedRun
  have inserted : .insert emitter callback id ∈
      (front ++ pushed :: events).filterMap AppEvent.observed :=
    List.mem_filterMap.mpr ⟨_, List.mem_append_left _ inserted, rfl⟩
  have activated : .activate id ∈ (front ++ pushed :: events).filterMap AppEvent.observed :=
    List.mem_filterMap.mpr ⟨_, List.mem_append_left _ activated, rfl⟩
  rw [← List.cons_append, ← List.append_assoc, List.filterMap_append] at lives
  have earlier := lives.of_append inserted
  have waiting : reached.Waiting emitter id :=
    waits earlier fun pass called => notCalled pass (List.mem_append_left _ called)
  apply waiting.step (wellFormed_of_run reachedRun wellFormed_new) _ _ (stepped_of_step steps)
  · rintro pass rfl
    exact notCalled pass (mem_snoc.mpr (Or.inr rfl))
  · exact (SubscriberSet.consistent_of_run observed).activated activated
  · exact SubscriberSet.located_of_run observed earlier

omit [DecidableEq T] [DecidableEq W] in
/-- A flush finishes where the queue is empty. -/
theorem Stepped.finished {self next : App E T V W C} {event : AppEvent E T V W C}
    (stepped : Stepped self event next) (flushing : self.flush ≠ none) (finished : next.flush = none) :
    self.pendingEffects = [] ∧ next = self.finishFlush ∧
      ∃ point, self.flush = some point ∧ point.released = [] ∧
        point.emitter? = none := by
  cases stepped with
  | finish _ _ atPoint notReleasing notNotifying empty =>
      exact ⟨empty, rfl, _, atPoint, notReleasing, notNotifying⟩
  | code _ _ grown => exact absurd (grown.flush ▸ finished) flushing
  | newObserver _ => exact absurd finished flushing
  | detach _ => exact absurd finished flushing
  | dropSubscription _ => exact absurd finished flushing
  | dropEntity => exact absurd finished flushing
  | callObserver _ _ => exact absurd finished flushing
  | skipObserver _ _ => exact absurd finished flushing
  | observerReturns _ _ => exact absurd finished flushing
  | _ => cases finished

/-- Where a flush finishes, no effect is pending, every dropped entity is released but
those dropped since they were last looked for, and every observer of an emitter that was
active when the emitter was notified has been called since, unless it was dropped,
returned `false` or was removed with the emitter. -/
theorem flush_loses_none {events : List (AppEvent E T V W C)} {event : AppEvent E T V W C}
    {app last : App E T V W C} (run : Run (step testSupport) (fun _ _ => True) new events app)
    (ends : app.step testSupport event = some last) (flushing : app.flush ≠ none)
    (finished : last.flush = none) :
    last.pendingEffects = [] ∧ (∀ emitter, last.pendingNotifications emitter = false) ∧
      last.flushingEffects = false ∧
      (∀ front entity back middle, events = front ++ .dropEntity entity :: back →
        Run (step testSupport) (fun _ _ => True) new front middle →
        middle.entities entity = true → .release entity ∈ back ∨ .takeDropped ∉ back) ∧
      ∀ front pushed back middle emitter callback id, events = front ++ pushed :: back →
        Run (step testSupport) (fun _ _ => True) new front middle →
        middle.Pushes emitter pushed →
        .newObserver emitter callback id ∈ front → .activateObserver id ∈ front →
        SubscriberSet.Lives emitter callback id (events.filterMap AppEvent.observed) →
        ∃ pass, .callObserver pass id ∈ back := by
  have wellFormed := wellFormed_of_run run wellFormed_new
  rcases (stepped_of_step ends).finished flushing finished with
    ⟨empty, rfl, point, atPoint, notReleasing, notNotifying⟩
  refine ⟨empty, ?_, rfl, ?_, ?_⟩
  · intro emitter
    apply Bool.eq_false_of_not_eq_true
    intro pending
    have queued := (wellFormed.deduplicated.pending emitter).mp pending
    rw [notified, empty] at queued
    cases queued
  · rintro front entity back middle rfl before isThere
    rcases run.split with ⟨other, after, again, -, steps, later⟩
    rcases before.unique again with rfl
    have wellFormedAfter := (wellFormed_of_run before wellFormed_new).step (stepped_of_step steps)
    rcases steps with ⟨⟩
    have invariant := later.invariant
      (fun events reached => reached.WellFormed ∧ Releasing entity events reached)
      ⟨wellFormedAfter,
        Or.inr (Or.inl ⟨List.not_mem_nil, List.mem_append_right _ List.mem_cons_self, isThere⟩)⟩
      fun before _ steps =>
        ⟨before.1.step (stepped_of_step steps), before.2.step before.1 (stepped_of_step steps)⟩
    rcases invariant.2 with released | ⟨untaken, -⟩ | ⟨other, atOther, taken⟩
    · exact Or.inl released
    · exact Or.inr untaken
    · rcases atPoint.symm.trans atOther with ⟨⟩
      rw [notReleasing] at taken
      cases taken
  · rintro front pushed back middle emitter callback id rfl before pushes inserted activated lives
    by_contra notCalled
    rcases waiting_of_run before run pushes inserted activated lives
      fun pass called => notCalled ⟨pass, called⟩ with queued | ⟨notifying, -⟩
    · rw [empty] at queued
      cases queued
    · rcases atPoint.symm.trans notifying with ⟨⟩
      cases notNotifying

/-! ## Observers that are not called -/

/-- An observer that notifies its own entity once. -/
def renotifying : List (AppEvent Nat Nat Nat Nat Nat) :=
  [.startUpdate, .insertEntity 0 0 none, .newObserver 0 10 0, .finishUpdate, .takeDropped,
    .applyEffect, .applied, .takeDropped, .activateObserver 0, .takeDropped, .finishFlush,
    .startUpdate, .notify 0, .notify 0, .finishUpdate, .takeDropped, .applyNotify 0 0,
    .callObserver 0 0, .notify 0, .observerReturns 0 0 true, .endNotify 0 0, .takeDropped,
    .applyNotify 0 1, .callObserver 1 0, .observerReturns 1 0 true, .endNotify 0 1, .takeDropped]

theorem flush_loses_none_renotifying :
    ∃ last : App Nat Nat Nat Nat Nat, last.pendingEffects = [] ∧
      ∃ pass, .callObserver pass 0 ∈ renotifying.drop 19 := by
  have runs : (renotifying.foldlM (step false) new).isSome := by decide
  have before : ((renotifying.take 18).foldlM (step false) new).isSome := by decide
  have run := Run.of_foldlM (Option.some_get runs).symm
  have front := Run.of_foldlM (Option.some_get before).symm
  have popping : ((renotifying.foldlM (step false) new).get runs).flush = some .popping := rfl
  have ends : ((renotifying.foldlM (step false) new).get runs).step false .finishFlush =
      some ((renotifying.foldlM (step false) new).get runs).finishFlush := rfl
  rcases flush_loses_none run ends (by rw [popping]; nofun) rfl with ⟨empty, -, -, -, called⟩
  refine ⟨_, empty, called (renotifying.take 18) (.notify 0) _ _ 0 10 0 rfl front ?_ ?_ ?_ ?_⟩
  · exact ⟨rfl, Or.inl rfl⟩
  · simp [renotifying]
  · simp [renotifying]
  · have observed : renotifying.filterMap AppEvent.observed =
        [.insert 0 10 0, .activate 0, .beginRetain 0 0, .call 0 0, .finishCall 0 0 true,
          .endRetain 0 0, .beginRetain 0 1, .call 1 0, .finishCall 1 0 true, .endRetain 0 1] :=
      rfl
    rw [observed]
    refine ⟨by simp, by simp, by simp, fun removed => ?_⟩
    simpa using removed.mem.2

/-- An entity that is notified and dropped before the flush. -/
def releasing : List (AppEvent Nat Nat Nat Nat Nat) :=
  [.startUpdate, .insertEntity 0 0 none, .newObserver 0 10 0, .finishUpdate, .takeDropped,
    .applyEffect, .applied, .takeDropped, .activateObserver 0, .takeDropped, .finishFlush,
    .startUpdate, .notify 0, .dropEntity 0, .finishUpdate, .takeDropped, .release 0, .released,
    .takeDropped, .applyNotifyNone 0, .takeDropped]

/-- An observer that notifies its own entity and returns `false`. -/
def returningFalse : List (AppEvent Nat Nat Nat Nat Nat) :=
  [.startUpdate, .insertEntity 0 0 none, .newObserver 0 10 0, .finishUpdate, .takeDropped,
    .applyEffect, .applied, .takeDropped, .activateObserver 0, .takeDropped, .finishFlush,
    .startUpdate, .notify 0, .finishUpdate, .takeDropped, .applyNotify 0 0, .callObserver 0 0,
    .notify 0, .observerReturns 0 0 false, .endNotify 0 0, .takeDropped, .applyNotifyNone 0,
    .takeDropped]

/-- An observer that is not dropped may yet not be called: it goes with its entity, or it
asks to go. -/
theorem exists_observer_not_called :
    (¬ ∀ (events front back : List (AppEvent Nat Nat Nat Nat Nat)) (event pushed) (middle app last),
      Run (step false) (fun _ _ => True) new events app →
      app.step false event = some last → app.flush ≠ none → last.flush = none →
      events = front ++ pushed :: back → Run (step false) (fun _ _ => True) new front middle →
      ∀ emitter callback id, middle.Pushes emitter pushed →
        .newObserver emitter callback id ∈ front → .activateObserver id ∈ front →
        .dropSubscription emitter id ∉ events → (∀ pass, .observerReturns pass id false ∉ events) →
        ∃ pass, .callObserver pass id ∈ back) ∧
    ¬ ∀ (events front back : List (AppEvent Nat Nat Nat Nat Nat)) (event pushed) (middle app last),
      Run (step false) (fun _ _ => True) new events app →
      app.step false event = some last → app.flush ≠ none → last.flush = none →
      events = front ++ pushed :: back → Run (step false) (fun _ _ => True) new front middle →
      ∀ emitter callback id, middle.Pushes emitter pushed →
        .newObserver emitter callback id ∈ front → .activateObserver id ∈ front →
        .dropSubscription emitter id ∉ events → .release emitter ∉ events →
        ∃ pass, .callObserver pass id ∈ back := by
  constructor
  · intro called
    have runs : (releasing.foldlM (step false) new).isSome := by decide
    have before : ((releasing.take 12).foldlM (step false) new).isSome := by decide
    have popping : ((releasing.foldlM (step false) new).get runs).flush = some .popping := rfl
    rcases called releasing (releasing.take 12) (releasing.drop 13) .finishFlush (.notify 0) _ _ _
      (Run.of_foldlM (Option.some_get runs).symm) rfl (by rw [popping]; nofun) rfl rfl
      (Run.of_foldlM (Option.some_get before).symm) 0 10 0 ⟨rfl, Or.inl rfl⟩ (by simp [releasing])
      (by simp [releasing]) (by simp [releasing]) (by simp [releasing]) with ⟨pass, isCalled⟩
    simp [releasing] at isCalled
  · intro called
    have runs : (returningFalse.foldlM (step false) new).isSome := by decide
    have before : ((returningFalse.take 17).foldlM (step false) new).isSome := by decide
    have popping : ((returningFalse.foldlM (step false) new).get runs).flush = some .popping := rfl
    rcases called returningFalse (returningFalse.take 17) (returningFalse.drop 18) .finishFlush
      (.notify 0) _ _ _ (Run.of_foldlM (Option.some_get runs).symm) rfl (by rw [popping]; nofun)
      rfl rfl (Run.of_foldlM (Option.some_get before).symm) 0 10 0 ⟨rfl, Or.inl rfl⟩
      (by simp [returningFalse]) (by simp [returningFalse]) (by simp [returningFalse])
      (by simp [returningFalse]) with ⟨pass, isCalled⟩
    simp [returningFalse] at isCalled

end App

end Gpui
