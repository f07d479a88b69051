import Gpui.App.Effects

/-!
# Steps of the effect queue

Callbacks only add to the queue.  Every step is one of a few kinds, by what it does
to the queue, the observers and the point that the flush is at.
-/

namespace Gpui

open Gpui.Library

variable {E T V W C : Type}

/-- The emitter that an effect notifies. -/
def Effect.emitter? : Effect E T V W C → Option E
  | .notify emitter => some emitter
  | _ => none

/-- The entities that a flush has taken and still has to release. -/
def FlushPoint.released : FlushPoint E → List E
  | .releasing dropped | .releaseListeners dropped => dropped
  | _ => []

/-- The emitter whose observers a flush is notifying. -/
def FlushPoint.emitter? : FlushPoint E → Option E
  | .notifying emitter => some emitter
  | _ => none

theorem FlushPoint.ne_notifying {point : FlushPoint E} (quiet : point.emitter? = none)
    (emitter : E) : point ≠ .notifying emitter := by
  rintro rfl
  cases quiet

namespace App

/-- The emitters that the queue notifies, in order. -/
def notified (self : App E T V W C) : List E :=
  self.pendingEffects.filterMap Effect.emitter?

/-- The queue notifies each emitter once, and those are the pending ones. -/
structure Deduplicated (app : App E T V W C) : Prop where
  distinct : app.notified.Nodup
  pending : ∀ emitter, app.pendingNotifications emitter = true ↔ emitter ∈ app.notified

/-! ## What pushing an effect does -/

/-- Effects were pushed, and the windows may have changed. -/
structure Grown (app next : App E T V W C) : Prop where
  flushing : next.flushingEffects = app.flushingEffects
  observers : next.observers = app.observers
  dropped : next.droppedEntityIds = app.droppedEntityIds
  flush : next.flush = app.flush
  entities : ∀ entity, app.entities entity = true → next.entities entity = true
  effects : app.pendingEffects ⊆ next.pendingEffects
  deduplicated : app.Deduplicated → next.Deduplicated

theorem Grown.refl (self : App E T V W C) : Grown self self :=
  ⟨rfl, rfl, rfl, rfl, fun _ => id, List.Subset.refl _, id⟩

/-- What leaves the queue and the observers alone. -/
theorem grown_of_eq {self next : App E T V W C}
    (same : (next.flushingEffects, next.observers, next.droppedEntityIds, next.flush,
        next.pendingEffects, next.pendingNotifications) =
      (self.flushingEffects, self.observers, self.droppedEntityIds, self.flush,
        self.pendingEffects, self.pendingNotifications))
    (entities : ∀ entity, self.entities entity = true → next.entities entity = true) :
    Grown self next := by
  simp only [Prod.mk.injEq] at same
  rcases same with ⟨flushing, observers, dropped, flush, effects, pending⟩
  refine ⟨flushing, observers, dropped, flush, entities, effects ▸ List.Subset.refl _,
    fun before => ?_⟩
  have notified : next.notified = self.notified := by rw [App.notified, effects, App.notified]
  exact ⟨notified ▸ before.distinct, fun emitter => by
    rw [pending, notified, before.pending emitter]⟩

theorem Grown.trans {self middle next : App E T V W C} (first : Grown self middle)
    (second : Grown middle next) : Grown self next where
  flushing := second.flushing.trans first.flushing
  observers := second.observers.trans first.observers
  dropped := second.dropped.trans first.dropped
  flush := second.flush.trans first.flush
  entities entity := second.entities entity ∘ first.entities entity
  effects := List.Subset.trans first.effects second.effects
  deduplicated := second.deduplicated ∘ first.deduplicated

theorem mem_notified_iff {self : App E T V W C} {emitter : E} :
    emitter ∈ self.notified ↔ .notify emitter ∈ self.pendingEffects := by
  rw [notified, List.mem_filterMap]
  constructor
  · rintro ⟨effect, queued, notifies⟩
    cases effect <;> cases notifies
    exact queued
  · exact fun queued => ⟨_, queued, rfl⟩

theorem notified_append (self : App E T V W C) (effect : Effect E T V W C) :
    (self.pushBack effect).notified = self.notified ++ effect.emitter?.toList := by
  cases look : effect.emitter? <;> simp [notified, pushBack, look]

/-- An effect that notifies nobody is appended as it is. -/
theorem grown_pushBack (self : App E T V W C) {effect : Effect E T V W C}
    (notifies : effect.emitter? = none) : Grown self (self.pushBack effect) where
  flushing := rfl
  observers := rfl
  dropped := rfl
  flush := rfl
  entities _ := id
  effects := List.subset_append_left _ _
  deduplicated := by
    have same : (self.pushBack effect).notified = self.notified := by
      simp [notified_append, notifies]
    rintro ⟨distinct, pending⟩
    exact ⟨same ▸ distinct, fun emitter => same ▸ pending emitter⟩

variable [DecidableEq E]

/-- A notification that is not pending becomes so. -/
theorem deduplicated_push {self : App E T V W C} (deduplicated : self.Deduplicated) {emitter : E}
    (idle : self.pendingNotifications emitter = false) :
    Deduplicated
      { self with
        pendingNotifications := Function.update self.pendingNotifications emitter true
        pendingEffects := self.pendingEffects ++ [.notify emitter] } := by
  have fresh : emitter ∉ self.notified := by
    intro queued
    rw [(deduplicated.pending emitter).mpr queued] at idle
    cases idle
  constructor
  · have appended := notified_append self (.notify emitter)
    change (self.pushBack (.notify emitter)).notified.Nodup
    rw [appended]
    apply List.Nodup.append deduplicated.distinct (List.nodup_singleton _)
    rintro other queued isLast
    rw [List.mem_singleton.mp isLast] at queued
    exact fresh queued
  · intro other
    change _ ↔ other ∈ (self.pushBack (.notify emitter)).notified
    rw [notified_append]
    by_cases same : other = emitter
    · subst same
      simp [Effect.emitter?]
    · simp [Effect.emitter?, same, deduplicated.pending other]

variable [DecidableEq T]

theorem grown_pushEffect (self : App E T V W C) (effect : Effect E T V W C) :
    Grown self (self.pushEffect effect) := by
  cases effect with
  | notify emitter =>
      simp only [pushEffect]
      split
      · exact .refl self
      · rename_i idle
        exact ⟨rfl, rfl, rfl, rfl, fun _ => id, List.subset_append_left _ _,
          fun deduplicated => deduplicated_push deduplicated (Bool.eq_false_of_not_eq_true idle)⟩
  | notifyGlobalObservers globalType =>
      simp only [pushEffect]
      split
      · exact .refl self
      · have pushed : Grown self (self.pushBack (.notifyGlobalObservers globalType)) :=
          grown_pushBack self rfl
        refine ⟨rfl, rfl, rfl, rfl, fun _ => id, pushed.effects, fun before => ?_⟩
        exact ⟨(pushed.deduplicated before).distinct, (pushed.deduplicated before).pending⟩
  | emit emitter eventType event => exact grown_pushBack self rfl
  | refreshWindows => exact grown_pushBack self rfl
  | defer callback => exact grown_pushBack self rfl
  | entityCreated entity tid window => exact grown_pushBack self rfl

variable [DecidableEq W]

theorem grown_invalidateView (self : App E T V W C) (window : W) (entity : E) :
    Grown self (self.invalidateView window entity) := by
  simp only [invalidateView]
  split
  · refine Grown.trans ?_ (grown_pushEffect _ _)
    exact grown_of_eq rfl fun _ => id
  · exact grown_of_eq rfl fun _ => id

theorem grown_foldl_invalidateView (entity : E) (windows : List W) (self : App E T V W C) :
    Grown self (windows.foldl (fun app window => app.invalidateView window entity) self) := by
  induction windows generalizing self with
  | nil => exact .refl self
  | cons window windows ih => exact (grown_invalidateView self window entity).trans (ih _)

theorem grown_notify (self : App E T V W C) (entity : E) : Grown self (self.notify entity) := by
  simp only [notify]
  split
  · split
    · exact .refl self
    · rename_i idle
      exact ⟨rfl, rfl, rfl, rfl, fun _ => id, List.subset_append_left _ _,
        fun deduplicated => deduplicated_push deduplicated (Bool.eq_false_of_not_eq_true idle)⟩
  · exact grown_foldl_invalidateView entity _ self

omit [DecidableEq W] in
theorem queued_pushEffect_notify {self : App E T V W C} (deduplicated : self.Deduplicated)
    (emitter : E) : .notify emitter ∈ (self.pushEffect (.notify emitter)).pendingEffects := by
  simp only [pushEffect]
  split
  · rename_i pending
    exact mem_notified_iff.mp ((deduplicated.pending emitter).mp pending)
  · exact List.mem_append_right _ List.mem_cons_self

theorem drawPhase_invalidateView (self : App E T V W C) (window other : W) (entity : E) :
    ((self.invalidateView window entity).invalidators other).drawPhase =
      (self.invalidators other).drawPhase := by
  have invalidators_pushEffect (app : App E T V W C) :
      (app.pushEffect (.notify entity)).invalidators = app.invalidators := by
    simp only [pushEffect]
    split <;> rfl
  simp only [invalidateView]
  by_cases same : other = window
  · subst same
    split <;> simp [invalidators_pushEffect]
  · split <;> simp [invalidators_pushEffect, same]

/-- A window that is not drawing pushes the notification. -/
theorem queued_foldl_invalidateView {entity : E} {window : W} {windows : List W}
    (member : window ∈ windows) {self : App E T V W C} (deduplicated : self.Deduplicated)
    (idle : (self.invalidators window).drawPhase = .none) :
    .notify entity ∈ (windows.foldl (fun app window => app.invalidateView window entity)
      self).pendingEffects := by
  induction windows generalizing self with
  | nil => cases member
  | cons first windows ih =>
      have grown := grown_invalidateView self first entity
      rcases List.mem_cons.mp member with rfl | later
      · apply (grown_foldl_invalidateView entity windows _).effects
        simp only [invalidateView, idle, if_true]
        apply queued_pushEffect_notify
        exact ⟨deduplicated.distinct, deduplicated.pending⟩
      · apply ih later (grown.deduplicated deduplicated)
        rw [drawPhase_invalidateView, idle]

theorem queued_notify {self : App E T V W C} (deduplicated : self.Deduplicated) {emitter : E}
    {event : AppEvent E T V W C} (pushes : self.Pushes emitter event) :
    event = .notify emitter ∧ .notify emitter ∈ (self.notify emitter).pendingEffects := by
  cases event with
  | notify entity =>
      rcases pushes with ⟨rfl, shown⟩
      refine ⟨rfl, ?_⟩
      simp only [notify]
      rcases shown with nowhere | ⟨window, member, idle⟩
      · rw [nowhere, List.isEmpty_nil, if_pos rfl]
        exact queued_pushEffect_notify deduplicated entity
      · rw [if_neg (by simpa using List.ne_nil_of_mem member)]
        exact queued_foldl_invalidateView member deduplicated idle
  | _ => exact pushes.elim

/-! ## Steps -/

/-- Everything a step can do, by what it does to the queue and the observers. -/
inductive Stepped (app : App E T V W C) : AppEvent E T V W C → App E T V W C → Prop where
  /-- Callbacks push effects, or draw. -/
  | code {event : AppEvent E T V W C} {next : App E T V W C} (quiet : event.observed = none)
      (keeps : event ≠ .takeDropped) (grown : Grown app next) : Stepped app event next
  | newObserver {key : E} {value : C} {id : Nat} {observers : SubscriberSet E C}
      (stepped : SubscriberSet.Stepped app.observers (.insert key value id) observers) :
      Stepped app (.newObserver key value id)
        ({ app with observers }.pushBack (.defer (.activate id)))
  | detach {key : E} {id : Nat} {observers : SubscriberSet E C}
      (stepped : SubscriberSet.Stepped app.observers (.detach key id) observers) :
      Stepped app (.detach key id) { app with observers }
  | dropSubscription {key : E} {id : Nat} {observers : SubscriberSet E C}
      (stepped : SubscriberSet.Stepped app.observers (.drop key id) observers) :
      Stepped app (.dropSubscription key id) { app with observers }
  | dropEntity {entity : E} :
      Stepped app (.dropEntity entity)
        { app with droppedEntityIds := app.droppedEntityIds ++ [entity] }
  | beginFlush (idle : app.flushingEffects = false) :
      Stepped app .finishUpdate
        { app with flushingEffects := true, flush := some (.releasing []) }
  | takeDropped (releasing : app.flush = some (.releasing [])) :
      Stepped app .takeDropped
        { app.takeDropped.2 with
          flush := some
            (if app.takeDropped.1.isEmpty then .popping else .releasing app.takeDropped.1) }
  | release {entity : E} {dropped : List E} {observers : SubscriberSet E C}
      (releasing : app.flush = some (.releasing (entity :: dropped)))
      (stepped : SubscriberSet.Stepped app.observers (.remove entity) observers) :
      Stepped app (.release entity) { app with observers, flush := some (.releaseListeners dropped) }
  | released {dropped : List E} (releasing : app.flush = some (.releaseListeners dropped)) :
      Stepped app .released { app with flush := some (.releasing dropped) }
  | goOn {event : AppEvent E T V W C} {before after : FlushPoint E} (quiet : event.observed = none)
      (keeps : event ≠ .takeDropped) (flushing : app.flush = some before)
      (notReleasing : before.released = []) (notBefore : before.emitter? = none)
      (notAfter : after.emitter? = none) :
      Stepped app event { app with flush := some after }
  | applyNotify {emitter : E} {pass : Nat} {pendingEffects : List (Effect E T V W C)}
      {observers : SubscriberSet E C} (popping : app.flush = some .popping)
      (queue : app.pendingEffects = .notify emitter :: pendingEffects)
      (stepped : SubscriberSet.Stepped app.observers (.beginRetain emitter pass) observers) :
      Stepped app (.applyNotify emitter pass)
        { app with
          observers
          pendingEffects
          pendingNotifications := Function.update app.pendingNotifications emitter false
          flush := some (.notifying emitter) }
  | applyNotifyNone {emitter : E} {pendingEffects : List (Effect E T V W C)}
      {observers : SubscriberSet E C} (popping : app.flush = some .popping)
      (queue : app.pendingEffects = .notify emitter :: pendingEffects)
      (stepped : SubscriberSet.Stepped app.observers (.emptyRetain emitter) observers) :
      Stepped app (.applyNotifyNone emitter)
        { app with
          observers
          pendingEffects
          pendingNotifications := Function.update app.pendingNotifications emitter false
          flush := some (.releasing []) }
  | callObserver {emitter : E} {pass id : Nat} {observers : SubscriberSet E C}
      (notifying : app.flush = some (.notifying emitter))
      (stepped : SubscriberSet.Stepped app.observers (.call pass id) observers) :
      Stepped app (.callObserver pass id) { app with observers }
  | skipObserver {emitter : E} {pass id : Nat} {observers : SubscriberSet E C}
      (notifying : app.flush = some (.notifying emitter))
      (stepped : SubscriberSet.Stepped app.observers (.skip pass id) observers) :
      Stepped app (.skipObserver pass id) { app with observers }
  | observerReturns {emitter : E} {pass id : Nat} {retained : Bool}
      {observers : SubscriberSet E C} (notifying : app.flush = some (.notifying emitter))
      (stepped : SubscriberSet.Stepped app.observers (.finishCall pass id retained) observers) :
      Stepped app (.observerReturns pass id retained) { app with observers }
  | endNotify {emitter : E} {pass : Nat} {observers : SubscriberSet E C}
      (notifying : app.flush = some (.notifying emitter))
      (stepped : SubscriberSet.Stepped app.observers (.endRetain emitter pass) observers) :
      Stepped app (.endNotify emitter pass)
        { app with observers, flush := some (.releasing []) }
  | activateObserver {id : Nat} {pendingEffects : List (Effect E T V W C)}
      {observers : SubscriberSet E C} (popping : app.flush = some .popping)
      (queue : app.pendingEffects = .defer (.activate id) :: pendingEffects)
      (stepped : SubscriberSet.Stepped app.observers (.activate id) observers) :
      Stepped app (.activateObserver id)
        { app with observers, pendingEffects, flush := some (.releasing []) }
  | applyEffect {effect : Effect E T V W C} {pendingEffects : List (Effect E T V W C)}
      {pendingGlobalNotifications : T → Bool} (popping : app.flush = some .popping)
      (queue : app.pendingEffects = effect :: pendingEffects)
      (notifies : effect.emitter? = none) :
      Stepped app .applyEffect
        { app with pendingEffects, pendingGlobalNotifications, flush := some .applying }
  | finish {event : AppEvent E T V W C} {point : FlushPoint E} (quiet : event.observed = none)
      (keeps : event ≠ .takeDropped) (flushing : app.flush = some point)
      (notReleasing : point.released = []) (notNotifying : point.emitter? = none)
      (empty : app.pendingEffects = []) :
      Stepped app event app.finishFlush

omit [DecidableEq T] [DecidableEq W] in
theorem observe_eq_some {self next : App E T V W C} {event : SubscriberEvent E C}
    (observes : self.observe event = some next) :
    ∃ observers, SubscriberSet.Stepped self.observers event observers ∧
      next = { self with observers } := by
  rcases Option.bind_eq_some_iff.mp observes with ⟨observers, steps, same⟩
  exact ⟨observers, SubscriberSet.stepped_of_step steps, (Option.some.inj same).symm⟩

omit [DecidableEq T] [DecidableEq W] in
theorem observe_bind_eq_some {self next : App E T V W C} {event : SubscriberEvent E C}
    {after : App E T V W C → App E T V W C}
    (observes : (do let app ← self.observe event; return after app) = some next) :
    ∃ observers, SubscriberSet.Stepped self.observers event observers ∧
      next = after { self with observers } := by
  rcases Option.bind_eq_some_iff.mp observes with ⟨_, observed, same⟩
  rcases observe_eq_some observed with ⟨observers, stepped, rfl⟩
  exact ⟨observers, stepped, (Option.some.inj same).symm⟩

theorem stepped_of_step {testSupport : Bool} {self next : App E T V W C}
    {event : AppEvent E T V W C} (steps : self.step testSupport event = some next) :
    Stepped self event next := by
  cases event with
  | startUpdate =>
      simp only [step, Option.ite_none_right_eq_some, Option.some.injEq] at steps
      rcases steps with ⟨-, rfl⟩
      exact .code rfl nofun (grown_of_eq rfl fun _ => id)
  | finishUpdate =>
      simp only [step, Option.ite_none_right_eq_some, Option.some.injEq] at steps
      rcases steps with ⟨-, rfl⟩
      simp only [finishUpdate]
      split
      · rename_i outermost
        apply Stepped.beginFlush
        simp only [Bool.and_eq_true, Bool.not_eq_true'] at outermost
        exact outermost.1
      · exact .code rfl nofun (grown_of_eq rfl fun _ => id)
  | notify entity =>
      simp only [step, Option.ite_none_right_eq_some, Option.some.injEq] at steps
      rcases steps with ⟨-, rfl⟩
      exact .code rfl nofun (grown_notify self entity)
  | emit emitter eventType event =>
      simp only [step, Option.ite_none_right_eq_some, Option.some.injEq] at steps
      rcases steps with ⟨-, rfl⟩
      exact .code rfl nofun (grown_pushBack self rfl)
  | refreshWindows =>
      simp only [step, Option.ite_none_right_eq_some, Option.some.injEq] at steps
      rcases steps with ⟨-, rfl⟩
      exact .code rfl nofun (grown_pushBack self rfl)
  | notifyGlobalObservers globalType =>
      simp only [step, Option.ite_none_right_eq_some, Option.some.injEq] at steps
      rcases steps with ⟨-, rfl⟩
      exact .code rfl nofun (grown_pushEffect self _)
  | defer callback =>
      simp only [step, Option.ite_none_right_eq_some, Option.some.injEq] at steps
      rcases steps with ⟨-, rfl⟩
      exact .code rfl nofun (grown_pushEffect self _)
  | insertEntity entity tid window =>
      simp only [step, Option.ite_none_right_eq_some, Option.some.injEq] at steps
      rcases steps with ⟨-, rfl⟩
      refine .code rfl nofun (Grown.trans ?_ (grown_pushEffect _ _))
      refine grown_of_eq rfl ?_
      intro other isThere
      by_cases same : other = entity
      · simp [same]
      · simpa [same] using isThere
  | newObserver key value id =>
      simp only [step, Option.ite_none_right_eq_some] at steps
      rcases observe_bind_eq_some steps.2 with ⟨observers, stepped, rfl⟩
      exact .newObserver stepped
  | detach key id =>
      simp only [step, Option.ite_none_right_eq_some] at steps
      rcases observe_eq_some steps.2 with ⟨observers, stepped, rfl⟩
      exact .detach stepped
  | recordAccess entity windows =>
      simp only [step, Option.ite_none_right_eq_some, Option.some.injEq] at steps
      rcases steps with ⟨-, rfl⟩
      exact .code rfl nofun (grown_of_eq rfl fun _ => id)
  | setInvalidator window invalidator =>
      rcases steps with ⟨⟩
      exact .code rfl nofun (grown_of_eq rfl fun _ => id)
  | dropSubscription key id =>
      rcases observe_eq_some steps with ⟨observers, stepped, rfl⟩
      exact .dropSubscription stepped
  | dropEntity entity =>
      rcases steps with ⟨⟩
      exact .dropEntity
  | takeDropped =>
      simp only [step] at steps
      split at steps
      · rename_i releasing
        rcases steps with ⟨⟩
        exact .takeDropped releasing
      · cases steps
  | release entity =>
      simp only [step] at steps
      split at steps
      · rename_i entityId dropped releasing
        rw [Option.ite_none_right_eq_some] at steps
        rcases steps with ⟨rfl, steps⟩
        rcases observe_bind_eq_some steps with ⟨observers, stepped, rfl⟩
        exact .release releasing stepped
      · cases steps
  | released =>
      simp only [step] at steps
      split at steps
      · rename_i releasing
        rcases steps with ⟨⟩
        exact .released releasing
      · cases steps
  | applyNotify emitter pass =>
      simp only [step] at steps
      split at steps
      · rename_i popping queue
        rw [Option.ite_none_right_eq_some] at steps
        rcases steps with ⟨rfl, steps⟩
        rcases observe_bind_eq_some steps with ⟨observers, stepped, rfl⟩
        exact .applyNotify popping queue stepped
      · cases steps
  | applyNotifyNone emitter =>
      simp only [step] at steps
      split at steps
      · rename_i popping queue
        rw [Option.ite_none_right_eq_some] at steps
        rcases steps with ⟨rfl, steps⟩
        rcases observe_bind_eq_some steps with ⟨observers, stepped, rfl⟩
        exact .applyNotifyNone popping queue stepped
      · cases steps
  | callObserver pass id =>
      simp only [step] at steps
      split at steps
      · rename_i notifying
        rcases observe_eq_some steps with ⟨observers, stepped, rfl⟩
        exact .callObserver notifying stepped
      · cases steps
  | skipObserver pass id =>
      simp only [step] at steps
      split at steps
      · rename_i notifying
        rcases observe_eq_some steps with ⟨observers, stepped, rfl⟩
        exact .skipObserver notifying stepped
      · cases steps
  | observerReturns pass id retained =>
      simp only [step] at steps
      split at steps
      · rename_i notifying
        rcases observe_eq_some steps with ⟨observers, stepped, rfl⟩
        exact .observerReturns notifying stepped
      · cases steps
  | endNotify emitter pass =>
      simp only [step] at steps
      split at steps
      · rename_i notifying
        rw [Option.ite_none_right_eq_some] at steps
        rcases steps with ⟨rfl, steps⟩
        rcases observe_bind_eq_some steps with ⟨observers, stepped, rfl⟩
        exact .endNotify notifying stepped
      · cases steps
  | activateObserver id =>
      simp only [step] at steps
      split at steps
      · rename_i popping queue
        rw [Option.ite_none_right_eq_some] at steps
        rcases steps with ⟨rfl, steps⟩
        rcases observe_bind_eq_some steps with ⟨observers, stepped, rfl⟩
        exact .activateObserver popping queue stepped
      · cases steps
  | applyEffect =>
      simp only [step] at steps
      split at steps
      · rename_i effect pendingEffects popping queue
        cases effect with
        | notify emitter => cases steps
        | defer callback =>
            cases callback with
            | activate id => cases steps
            | callback callback =>
                rcases steps with ⟨⟩
                exact .applyEffect popping queue rfl
        | _ =>
            rcases steps with ⟨⟩
            exact .applyEffect popping queue rfl
      · cases steps
  | applied =>
      simp only [step] at steps
      split at steps
      · rename_i applying
        rcases steps with ⟨⟩
        exact .goOn rfl nofun applying rfl rfl rfl
      · cases steps
  | finishFlush =>
      simp only [step] at steps
      split at steps
      · rename_i popping empty
        rw [Option.ite_none_left_eq_some] at steps
        rcases steps with ⟨-, ⟨⟩⟩
        exact .finish rfl nofun popping rfl rfl empty
      · cases steps
  | drawWindows =>
      simp only [step] at steps
      split at steps
      · rename_i popping empty
        rw [Option.ite_none_right_eq_some] at steps
        rcases steps with ⟨-, ⟨⟩⟩
        exact .goOn rfl nofun popping rfl rfl rfl
      · cases steps
  | windowsDrawn =>
      simp only [step] at steps
      split at steps
      · rename_i drawing
        split at steps
        · rename_i empty
          rcases steps with ⟨⟩
          exact .finish rfl nofun drawing rfl rfl (List.isEmpty_iff.mp empty)
        · rcases steps with ⟨⟩
          exact .goOn rfl nofun drawing rfl rfl rfl
      · cases steps

end App

end Gpui
