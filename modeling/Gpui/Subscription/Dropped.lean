import Gpui.Subscription.Invariants

/-!
# Dropped subscriptions

A subscription dropped while its callback is taken out must leave a mark, and the
mark must survive until the pass that has the callback ends.  Where both are so,
no later pass calls it.
-/

namespace Gpui

open Gpui.Library

variable {E C : Type} [DecidableEq E]

namespace SubscriberSet

/-- No drop and no end of a pass that forgets a taken subscriber: a drop finds the
map still taken if a pass holds the subscriber, and a pass that ends finds no mark
on a subscriber that a pass around it holds. -/
def Careful (self : SubscriberSet E C) : SubscriberEvent E C → Prop
  | .drop emitter id =>
      (∃ pass ∈ self.passes, ∃ callback, pass.Holds id callback) →
        self.state.subscribers emitter = some none
  | .endRetain _ _ =>
      ∀ pass ∈ self.passes.tail, ∀ id callback, pass.Holds id callback →
        ∀ emitter, (emitter, id) ∉ self.state.droppedSubscribers
  | _ => True

/-- A dropped subscriber is in no map, is marked where a pass holds it, and neither
held nor called by a pass that began after the drop. -/
structure Silenced (events : List (SubscriberEvent E C)) (reached : SubscriberSet E C) : Prop where
  consistent : Consistent events reached
  absent : ∀ {emitter id}, .drop emitter id ∈ events →
    ∀ {other callback}, ¬ reached.state.Registered other id callback
  marked : ∀ {emitter id}, .drop emitter id ∈ events →
    ∀ {pass callback}, pass ∈ reached.passes → pass.Holds id callback →
      (emitter, id) ∈ reached.state.droppedSubscribers
  held : ∀ {pass id callback}, pass ∈ reached.passes → pass.Holds id callback →
    ∀ {emitter other}, ¬ Before (.drop emitter id) (.beginRetain other pass.number) events
  called : ∀ {number id}, .call number id ∈ events →
    ∀ {emitter other}, ¬ Before (.drop emitter id) (.beginRetain other number) events

omit [DecidableEq E] in
theorem silenced_new : Silenced [] (new : SubscriberSet E C) where
  consistent := consistent_new
  absent := nofun
  marked := nofun
  held := nofun
  called := nofun

/-- A mark stays until the end of a pass. -/
theorem Stepped.marked_of_marked {self next : SubscriberSet E C} {event : SubscriberEvent E C}
    (stepped : Stepped self event next) {emitter : E} {id : Nat}
    (marked : (emitter, id) ∈ self.state.droppedSubscribers) :
    (emitter, id) ∈ next.state.droppedSubscribers ∨
      ∃ ended number, event = .endRetain ended number := by
  cases stepped with
  | drop _ => exact Or.inl (SubscriberSetState.mem_unsubscribe_dropped.mpr (Or.inl marked))
  | beginRetain took =>
      rcases SubscriberSetState.take_eq_some took with ⟨-, rfl⟩
      exact Or.inl marked
  | endRetain _ _ _ => exact Or.inr ⟨_, _, rfl⟩
  | insert => exact Or.inl marked
  | activate _ => exact Or.inl marked
  | detach _ => exact Or.inl marked
  | remove => exact Or.inl marked
  | emptyRetain _ => exact Or.inl marked
  | call _ _ _ _ => exact Or.inl marked
  | skip _ _ _ _ => exact Or.inl marked
  | finishCall _ _ => exact Or.inl marked

theorem Stepped.drop_marked {self next : SubscriberSet E C} {emitter : E} {id : Nat}
    (stepped : Stepped self (.drop emitter id) next)
    (taken : self.state.subscribers emitter = some none) :
    (emitter, id) ∈ next.state.droppedSubscribers := by
  cases stepped with
  | drop _ => exact SubscriberSetState.mem_unsubscribe_dropped.mpr (Or.inr ⟨taken, rfl, rfl⟩)

theorem Stepped.endRetain_passes {self next : SubscriberSet E C} {emitter : E} {number : Nat}
    (stepped : Stepped self (.endRetain emitter number) next) : next.passes = self.passes.tail := by
  cases stepped with
  | endRetain top _ _ => exact (congrArg List.tail top).symm

theorem Silenced.step {events : List (SubscriberEvent E C)} {event : SubscriberEvent E C}
    {self next : SubscriberSet E C} (silenced : Silenced events self)
    (careful : self.Careful event) (steps : self.step event = some next) :
    Silenced (events ++ [event]) next := by
  have stepped := stepped_of_step steps
  have consistent := silenced.consistent
  constructor
  case consistent => exact consistent.step steps
  case absent =>
    intro emitter id dropped other callback registered
    rcases stepped.registered registered with
      ⟨before, notDropped⟩ | ⟨rfl, fresh⟩ | ⟨pass, under, -, rfl, holds, unmarked⟩
    · rcases mem_snoc.mp dropped with already | rfl
      · exact silenced.absent already before
      · rcases consistent.subscribed stepped.drop_subscribed with ⟨_, inserted⟩
        rcases consistent.unique inserted (consistent.registered before) with ⟨rfl, -⟩
        exact notDropped rfl
    · rcases mem_snoc.mp dropped with already | ⟨⟨⟩⟩
      rcases consistent.dropped already with ⟨_, inserted⟩
      exact absurd fresh (consistent.inserted inserted).ne
    · rcases mem_snoc.mp dropped with already | ⟨⟨⟩⟩
      exact unmarked emitter (silenced.marked already under holds)
  case marked =>
    intro emitter id dropped pass callback under holds
    rcases stepped.holds under holds with ⟨old, before, -, -, held⟩ | ⟨rfl, -, registered⟩
    · rcases mem_snoc.mp dropped with already | rfl
      · have marked := silenced.marked already before held
        rcases stepped.marked_of_marked marked with still | ⟨_, _, rfl⟩
        · exact still
        · have outer := stepped.endRetain_passes ▸ under
          exact absurd marked (careful pass outer id callback holds emitter)
      · exact stepped.drop_marked (careful ⟨old, before, callback, held⟩)
    · rcases mem_snoc.mp dropped with already | ⟨⟨⟩⟩
      exact absurd registered (silenced.absent already)
  case held =>
    intro pass id callback under holds emitter other before
    rcases stepped.holds under holds with ⟨old, earlier, same, -, held⟩ | ⟨-, same, registered⟩
    · rcases before_snoc_iff.mp before with earlierBegun | ⟨begins, -⟩
      · exact silenced.held earlier held (same ▸ earlierBegun)
      · have below := consistent.numbered earlier
        rw [same, (stepped.nextPass.2 begins).1] at below
        exact lt_irrefl _ below
    · rcases before_snoc_iff.mp before with earlierBegun | ⟨-, already⟩
      · exact absurd same (consistent.begun earlierBegun.mem.2).ne
      · exact silenced.absent already registered
  case called =>
    intro number id called emitter other before
    rcases mem_snoc.mp called with already | rfl
    · rcases before_snoc_iff.mp before with earlierBegun | ⟨begins, -⟩
      · exact silenced.called already earlierBegun
      · exact absurd (stepped.nextPass.2 begins).1 (consistent.called already).ne
    · rcases stepped.call_holds with ⟨pass, under, rfl, callback, holds⟩
      rcases before_snoc_iff.mp before with earlierBegun | ⟨⟨⟩, -⟩
      exact silenced.held under holds earlierBegun

/-- In a careful run no pass that begins after the drop of a subscription calls
its callback. -/
theorem not_called_after_drop {events : List (SubscriberEvent E C)} {reached : SubscriberSet E C}
    (run : Run step Careful new events reached) {emitter other : E} {id number : Nat}
    (dropped : Before (.drop emitter id) (.beginRetain other number) events) :
    .call number id ∉ events := by
  have silenced : Silenced events reached :=
    run.invariant Silenced silenced_new fun silenced careful steps => silenced.step careful steps
  exact fun called => silenced.called called dropped

/-! ## A subscription replaced by its own callback -/

/-- A callback drops its own subscription, and another pass follows. -/
def unsubscribing : List (SubscriberEvent Nat Nat) :=
  [.insert 0 10 0, .insert 0 11 1, .activate 0, .beginRetain 0 0, .call 0 0, .drop 0 0,
    .finishCall 0 0 true, .skip 0 1, .endRetain 0 0, .beginRetain 0 1]

theorem not_called_after_drop_unsubscribing : .call 1 0 ∉ unsubscribing := by
  have careful : ∃ reached, Run step Careful new unsubscribing reached := by
    apply Exists.intro
    apply Run.cons trivial rfl
    apply Run.cons trivial rfl
    apply Run.cons trivial rfl
    apply Run.cons trivial rfl
    apply Run.cons trivial rfl
    apply Run.cons (fun _ => rfl) rfl
    apply Run.cons trivial rfl
    apply Run.cons trivial rfl
    apply Run.cons nofun rfl
    apply Run.cons trivial rfl
    exact .nil
  rcases careful with ⟨reached, run⟩
  have dropped : Before (.drop 0 0) (.beginRetain 0 1) unsubscribing :=
    ⟨unsubscribing.take 9, [], rfl, by decide⟩
  exact not_called_after_drop run dropped

/-- The callback inserts another subscriber before it drops its subscription. -/
def replacing : List (SubscriberEvent Nat Nat) :=
  [.insert 0 10 0, .activate 0, .beginRetain 0 0, .call 0 0, .insert 0 11 1, .drop 0 0,
    .finishCall 0 0 true, .endRetain 0 0, .beginRetain 0 1, .call 1 0]

theorem exists_called_after_drop :
    ¬ ∀ (events : List (SubscriberEvent Nat Nat)) (reached : SubscriberSet Nat Nat),
      Run step (fun _ _ => True) new events reached →
      ∀ emitter other id number,
        Before (.drop emitter id) (.beginRetain other number) events →
          .call number id ∉ events := by
  intro never
  have runs : (replacing.foldlM step new).isSome := by decide
  refine never replacing _ (Run.of_foldlM (Option.some_get runs).symm) 0 0 0 1 ?_ (by decide)
  exact ⟨replacing.take 8, [.call 1 0], rfl, by decide⟩

end SubscriberSet

end Gpui
