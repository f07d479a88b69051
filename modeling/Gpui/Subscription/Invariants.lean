import Gpui.Subscription.Core

/-!
# What every step of a subscriber set preserves

The operations of the set are described by their lookups, the steps by one
inversion.  From these follow the facts every run shares: where the subscribers
in the set and in the passes come from, and that ids and pass numbers are fresh.
-/

namespace Gpui

open Gpui.Library

variable {E C : Type} [DecidableEq E]

/-! ## Lookups -/

namespace SubscriberSetState

/-- The subscriber is in the emitter's map. -/
def Registered (self : SubscriberSetState E C) (emitter : E) (id : Nat) (callback : C) : Prop :=
  (self.mapOf emitter).get? id = some callback

theorem mapOf_update (self : SubscriberSetState E C) (emitter other : E)
    (entry : Option (Option (OrderedMap Nat C))) :
    ({ self with subscribers := Function.update self.subscribers emitter entry } :
        SubscriberSetState E C).mapOf other =
      if other = emitter then (entry.getD none).getD .empty else self.mapOf other := by
  by_cases same : other = emitter
  · subst same
    simp [mapOf]
  · simp [mapOf, same]

private theorem getD_unless_empty (map : OrderedMap Nat C) (id : Nat) :
    (((if map.isEmpty then none else some (some map)).getD none).getD
      (.empty : OrderedMap Nat C)).get? id = map.get? id := by
  cases empty : map.isEmpty with
  | true => simpa using (OrderedMap.isEmpty_iff.mp empty id).symm
  | false => rfl

theorem registered_insert_iff {self : SubscriberSetState E C} {emitter other : E}
    {callback held : C} {id : Nat} :
    (self.insert emitter callback).Registered other id held ↔
      if other = emitter ∧ id = self.nextSubscriberId then held = callback
      else self.Registered other id held := by
  have mapOf_eq : (self.insert emitter callback).mapOf other =
      if other = emitter then
        (self.mapOf emitter).insert self.nextSubscriberId callback
      else self.mapOf other := by
    by_cases same : other = emitter
    · subst same
      simp [insert, mapOf]
    · simp [insert, mapOf, same]
  rw [Registered, mapOf_eq]
  by_cases same : other = emitter
  · subst same
    rw [if_pos rfl, OrderedMap.get?_insert]
    by_cases fresh : id = self.nextSubscriberId
    · simp [fresh, eq_comm]
    · simp [fresh, Registered]
  · simp [same, Registered]

theorem registered_unsubscribe_iff {self : SubscriberSetState E C} {emitter other : E}
    {id dropped : Nat} {held : C} :
    (self.unsubscribe emitter dropped).Registered other id held ↔
      ¬ (other = emitter ∧ id = dropped) ∧ self.Registered other id held := by
  unfold Registered unsubscribe
  cases entry : self.subscribers emitter with
  | none =>
      constructor
      · intro registered
        refine ⟨?_, registered⟩
        rintro ⟨rfl, -⟩
        simp [mapOf, entry] at registered
      · exact And.right
  | some taken =>
      cases taken with
      | none =>
          constructor
          · intro registered
            refine ⟨?_, registered⟩
            rintro ⟨rfl, -⟩
            simp [mapOf, entry] at registered
          · exact And.right
      | some subscribers =>
          simp only [mapOf_update]
          by_cases same : other = emitter
          · subst same
            rw [if_pos rfl, getD_unless_empty, OrderedMap.get?_erase]
            by_cases same : id = dropped
            · simp [same]
            · simp [same, mapOf, entry]
          · simp [same]

/-- Only a drop that finds the map taken leaves a mark. -/
theorem mem_unsubscribe_dropped {self : SubscriberSetState E C} {emitter other : E}
    {id dropped : Nat} :
    (other, id) ∈ (self.unsubscribe emitter dropped).droppedSubscribers ↔
      (other, id) ∈ self.droppedSubscribers ∨
        self.subscribers emitter = some none ∧ other = emitter ∧ id = dropped := by
  unfold unsubscribe
  cases entry : self.subscribers emitter with
  | none => simp
  | some taken =>
      cases taken with
      | none => simp [or_comm]
      | some subscribers => simp

@[simp]
theorem unsubscribe_next (self : SubscriberSetState E C) (emitter : E) (id : Nat) :
    (self.unsubscribe emitter id).nextSubscriberId = self.nextSubscriberId := by
  unfold unsubscribe
  split <;> rfl

theorem registered_remove_iff {self : SubscriberSetState E C} {active : List Nat}
    {emitter other : E} {id : Nat} {held : C} :
    (self.remove active emitter).2.Registered other id held ↔
      other ≠ emitter ∧ self.Registered other id held := by
  rw [Registered, remove, mapOf_update]
  by_cases same : other = emitter <;> simp [same, Registered]

theorem take_eq_some {self taken : SubscriberSetState E C} {emitter : E}
    {subscribers : OrderedMap Nat C} (took : self.take emitter = some (subscribers, taken)) :
    subscribers = self.mapOf emitter ∧
      taken = { self with
        subscribers := Function.update self.subscribers emitter (some none) } := by
  unfold take at took
  split at took
  · rename_i entry
    simp only [Option.some.injEq, Prod.mk.injEq] at took
    obtain ⟨rfl, rfl⟩ := took
    exact ⟨by simp [mapOf, entry], rfl⟩
  · simp at took

/-- A `retain` finds the map of an emitter that has a subscriber in the set. -/
theorem take_ne_none {self : SubscriberSetState E C} {emitter : E} {id : Nat} {callback : C}
    (registered : self.Registered emitter id callback) : self.take emitter ≠ none := by
  intro nothing
  simp only [take] at nothing
  split at nothing
  · cases nothing
  · rename_i notTaken
    rcases entry : self.subscribers emitter with _ | _ | subscribers
    · simp [Registered, mapOf, entry] at registered
    · simp [Registered, mapOf, entry] at registered
    · exact notTaken subscribers entry

theorem registered_putBack_iff {self : SubscriberSetState E C} {emitter other : E}
    {subscribers : OrderedMap Nat C} {id : Nat} {held : C} :
    (self.putBack emitter subscribers).Registered other id held ↔
      if other = emitter then
        (∀ marked, (marked, id) ∉ self.droppedSubscribers) ∧
          ((self.mapOf emitter).get? id).or (subscribers.get? id) = some held
      else self.Registered other id held := by
  generalize merged_eq : (subscribers.extend (self.mapOf emitter)).eraseAll
    (self.droppedSubscribers.map Prod.snd) = merged
  have mapOf_eq : (self.putBack emitter subscribers).mapOf other =
      if other = emitter then
        ((if merged.isEmpty then none else some (some merged)).getD none).getD .empty
      else self.mapOf other := by
    rw [← merged_eq]
    exact mapOf_update self emitter other _
  rw [Registered, mapOf_eq]
  by_cases same : other = emitter
  · rw [if_pos same, if_pos same, getD_unless_empty, ← merged_eq, OrderedMap.get?_eraseAll,
      OrderedMap.get?_extend]
    by_cases marked : id ∈ self.droppedSubscribers.map Prod.snd
    · rcases List.mem_map.mp marked with ⟨⟨marker, _⟩, member, rfl⟩
      rw [if_pos marked]
      constructor
      · intro found
        cases found
      · exact fun found => absurd member (found.1 marker)
    · have unmarked : ∀ marker, (marker, id) ∉ self.droppedSubscribers :=
        fun marker member => marked (List.mem_map.mpr ⟨_, member, rfl⟩)
      rw [if_neg marked]
      exact (and_iff_right unmarked).symm
  · simp [same, Registered]

end SubscriberSetState

namespace Pass

/-- The pass has taken the subscriber and not let go of it. -/
def Holds (self : Pass E C) (id : Nat) (callback : C) : Prop :=
  self.kept.get? id = some callback ∨ self.current = some (id, callback) ∨
    (id, callback) ∈ self.rest

omit [DecidableEq E] in
theorem holds_of_call {self : Pass E C} {id called : Nat} {callback held : C}
    {rest : List (Nat × C)} (next : self.rest = (called, callback) :: rest)
    (holds : ({ self with current := some (called, callback), rest } : Pass E C).Holds id held) :
    self.Holds id held := by
  rcases holds with kept | running | waiting
  · exact Or.inl kept
  · rcases running with ⟨⟩
    exact Or.inr (Or.inr (next ▸ List.mem_cons_self))
  · exact Or.inr (Or.inr (next ▸ List.mem_cons_of_mem _ waiting))

omit [DecidableEq E] in
theorem holds_of_skip {self : Pass E C} {id skipped : Nat} {callback held : C}
    {rest : List (Nat × C)} (next : self.rest = (skipped, callback) :: rest)
    (holds : ({ self with kept := self.kept.insert skipped callback, rest } : Pass E C).Holds
      id held) : self.Holds id held := by
  rcases holds with kept | running | waiting
  · simp only [OrderedMap.get?_insert] at kept
    split at kept
    · rename_i same
      rcases kept with ⟨⟩
      exact Or.inr (Or.inr (by rw [same, next]; exact List.mem_cons_self))
    · exact Or.inl kept
  · exact Or.inr (Or.inl running)
  · exact Or.inr (Or.inr (next ▸ List.mem_cons_of_mem _ waiting))

omit [DecidableEq E] in
theorem holds_of_finishCall {self : Pass E C} {id finished : Nat} {callback held : C}
    {retained : Bool} (running : self.current = some (finished, callback))
    (holds : ({ self with
      kept := if retained then self.kept.insert finished callback else self.kept
      current := none } : Pass E C).Holds id held) : self.Holds id held := by
  rcases holds with kept | impossible | waiting
  · cases retained with
    | false => exact Or.inl kept
    | true =>
        simp only [if_true, OrderedMap.get?_insert] at kept
        split at kept
        · rename_i same
          rcases kept with ⟨⟩
          exact Or.inr (Or.inl (by rw [same]; exact running))
        · exact Or.inl kept
  · cases impossible
  · exact Or.inr (Or.inr waiting)

end Pass

/-! ## Steps -/

namespace SubscriberSet

/-- Everything a step can do, label by label. -/
inductive Stepped (self : SubscriberSet E C) :
    SubscriberEvent E C → SubscriberSet E C → Prop where
  | insert {emitter : E} {callback : C} :
      Stepped self (.insert emitter callback self.state.nextSubscriberId)
        { self with
          state := self.state.insert emitter callback
          subscriptions := (emitter, self.state.nextSubscriberId) :: self.subscriptions }
  | activate {id : Nat} (old : id < self.state.nextSubscriberId) :
      Stepped self (.activate id) { self with active := id :: self.active }
  | drop {emitter : E} {id : Nat} (subscribed : (emitter, id) ∈ self.subscriptions) :
      Stepped self (.drop emitter id)
        { self with
          state := self.state.unsubscribe emitter id
          subscriptions := self.subscriptions.filter (· ≠ (emitter, id)) }
  | detach {emitter : E} {id : Nat} (subscribed : (emitter, id) ∈ self.subscriptions) :
      Stepped self (.detach emitter id)
        { self with subscriptions := self.subscriptions.filter (· ≠ (emitter, id)) }
  | remove {emitter : E} :
      Stepped self (.remove emitter)
        { self with state := (self.state.remove self.active emitter).2 }
  | beginRetain {emitter : E} {subscribers : OrderedMap Nat C} {state : SubscriberSetState E C}
      (took : self.state.take emitter = some (subscribers, state)) :
      Stepped self (.beginRetain emitter self.nextPass)
        { self with
          state
          passes :=
            { number := self.nextPass, emitter, kept := .empty, current := none,
              rest := subscribers.entries } :: self.passes
          nextPass := self.nextPass + 1 }
  | emptyRetain {emitter : E} (nothing : self.state.take emitter = none) :
      Stepped self (.emptyRetain emitter) self
  | call {pass : Pass E C} {passes : List (Pass E C)} {id : Nat} {callback : C}
      {rest : List (Nat × C)} (top : self.passes = pass :: passes) (idle : pass.current = none)
      (next : pass.rest = (id, callback) :: rest) (isActive : id ∈ self.active) :
      Stepped self (.call pass.number id)
        { self with passes := { pass with current := some (id, callback), rest } :: passes }
  | skip {pass : Pass E C} {passes : List (Pass E C)} {id : Nat} {callback : C}
      {rest : List (Nat × C)} (top : self.passes = pass :: passes) (idle : pass.current = none)
      (next : pass.rest = (id, callback) :: rest) (inactive : id ∉ self.active) :
      Stepped self (.skip pass.number id)
        { self with
          passes := { pass with kept := pass.kept.insert id callback, rest } :: passes }
  | finishCall {pass : Pass E C} {passes : List (Pass E C)} {id : Nat} {callback : C}
      {retained : Bool} (top : self.passes = pass :: passes)
      (running : pass.current = some (id, callback)) :
      Stepped self (.finishCall pass.number id retained)
        { self with
          passes :=
            { pass with
              kept := if retained then pass.kept.insert id callback else pass.kept
              current := none } :: passes }
  | endRetain {pass : Pass E C} {passes : List (Pass E C)} (top : self.passes = pass :: passes)
      (idle : pass.current = none) (done : pass.rest = []) :
      Stepped self (.endRetain pass.emitter pass.number)
        { self with state := self.state.putBack pass.emitter pass.kept, passes }

theorem stepped_of_step {self next : SubscriberSet E C} {event : SubscriberEvent E C}
    (steps : self.step event = some next) : Stepped self event next := by
  cases event with
  | insert emitter callback id =>
      simp only [step, Option.ite_none_right_eq_some, Option.some.injEq] at steps
      rcases steps with ⟨rfl, rfl⟩
      exact .insert
  | activate id =>
      simp only [step, Option.ite_none_right_eq_some, Option.some.injEq] at steps
      rcases steps with ⟨old, rfl⟩
      exact .activate old
  | drop emitter id =>
      simp only [step, Option.ite_none_right_eq_some, Option.some.injEq] at steps
      rcases steps with ⟨subscribed, rfl⟩
      exact .drop subscribed
  | detach emitter id =>
      simp only [step, Option.ite_none_right_eq_some, Option.some.injEq] at steps
      rcases steps with ⟨subscribed, rfl⟩
      exact .detach subscribed
  | remove emitter =>
      rcases steps with ⟨⟩
      exact .remove
  | beginRetain emitter number =>
      simp only [step] at steps
      split at steps
      · rename_i took
        simp only [Option.ite_none_right_eq_some, Option.some.injEq] at steps
        rcases steps with ⟨rfl, rfl⟩
        exact .beginRetain took
      · cases steps
  | emptyRetain emitter =>
      simp only [step] at steps
      split at steps
      · cases steps
      · rename_i nothing
        rcases steps with ⟨⟩
        exact .emptyRetain nothing
  | call number id =>
      simp only [step] at steps
      split at steps
      · rename_i top
        split at steps
        · rename_i idle next
          simp only [Option.ite_none_right_eq_some, Option.some.injEq] at steps
          rcases steps with ⟨⟨rfl, rfl, isActive⟩, rfl⟩
          exact .call top idle next isActive
        · cases steps
      · cases steps
  | skip number id =>
      simp only [step] at steps
      split at steps
      · rename_i top
        split at steps
        · rename_i idle next
          simp only [Option.ite_none_right_eq_some, Option.some.injEq] at steps
          rcases steps with ⟨⟨rfl, rfl, inactive⟩, rfl⟩
          exact .skip top idle next inactive
        · cases steps
      · cases steps
  | finishCall number id retained =>
      simp only [step] at steps
      split at steps
      · rename_i top
        split at steps
        · rename_i running
          simp only [Option.ite_none_right_eq_some, Option.some.injEq] at steps
          rcases steps with ⟨⟨rfl, rfl⟩, rfl⟩
          exact .finishCall top running
        · cases steps
      · cases steps
  | endRetain emitter number =>
      simp only [step] at steps
      split at steps
      · rename_i top
        simp only [Option.ite_none_right_eq_some, Option.some.injEq] at steps
        rcases steps with ⟨⟨rfl, rfl, idle, done⟩, rfl⟩
        exact .endRetain top idle done
      · cases steps

theorem Stepped.step {self next : SubscriberSet E C} {event : SubscriberEvent E C}
    (stepped : Stepped self event next) : self.step event = some next := by
  cases stepped with
  | insert => simp [SubscriberSet.step]
  | activate old => simp [SubscriberSet.step, old]
  | drop subscribed => simp [SubscriberSet.step, subscribed]
  | detach subscribed => simp [SubscriberSet.step, subscribed]
  | remove => rfl
  | beginRetain took => simp [SubscriberSet.step, took]
  | emptyRetain nothing => simp [SubscriberSet.step, nothing]
  | call top idle next isActive => simp [SubscriberSet.step, top, idle, next, isActive]
  | skip top idle next inactive => simp [SubscriberSet.step, top, idle, next, inactive]
  | finishCall top running => simp [SubscriberSet.step, top, running]
  | endRetain top idle done => simp [SubscriberSet.step, top, idle, done]

/-- What a pass holds it held before, unless it just took it out of the set. -/
theorem Stepped.holds {self next : SubscriberSet E C} {event : SubscriberEvent E C}
    (stepped : Stepped self event next) {pass : Pass E C} (under : pass ∈ next.passes) {id : Nat}
    {callback : C} (holds : pass.Holds id callback) :
    (∃ old ∈ self.passes, old.number = pass.number ∧ old.emitter = pass.emitter ∧
        old.Holds id callback) ∨
      event = .beginRetain pass.emitter self.nextPass ∧ pass.number = self.nextPass ∧
        self.state.Registered pass.emitter id callback := by
  have unchanged (old : pass ∈ self.passes) :
      ∃ old ∈ self.passes, old.number = pass.number ∧ old.emitter = pass.emitter ∧
        old.Holds id callback :=
    ⟨pass, old, rfl, rfl, holds⟩
  cases stepped with
  | insert => exact Or.inl (unchanged under)
  | activate _ => exact Or.inl (unchanged under)
  | drop _ => exact Or.inl (unchanged under)
  | detach _ => exact Or.inl (unchanged under)
  | remove => exact Or.inl (unchanged under)
  | emptyRetain _ => exact Or.inl (unchanged under)
  | beginRetain took =>
      rcases List.mem_cons.mp under with rfl | outer
      · rcases SubscriberSetState.take_eq_some took with ⟨rfl, -⟩
        rcases holds with kept | running | waiting
        · simp at kept
        · cases running
        · exact Or.inr ⟨rfl, rfl, OrderedMap.get?_eq_some_iff.mpr waiting⟩
      · exact Or.inl (unchanged outer)
  | @call first _ _ _ _ top idle isNext isActive =>
      rcases List.mem_cons.mp under with rfl | outer
      · exact Or.inl ⟨first, top ▸ List.mem_cons_self, rfl, rfl, Pass.holds_of_call isNext holds⟩
      · exact Or.inl (unchanged (top ▸ List.mem_cons_of_mem _ outer))
  | @skip first _ _ _ _ top idle isNext inactive =>
      rcases List.mem_cons.mp under with rfl | outer
      · exact Or.inl ⟨first, top ▸ List.mem_cons_self, rfl, rfl, Pass.holds_of_skip isNext holds⟩
      · exact Or.inl (unchanged (top ▸ List.mem_cons_of_mem _ outer))
  | @finishCall first _ _ _ _ top running =>
      rcases List.mem_cons.mp under with rfl | outer
      · exact Or.inl
          ⟨first, top ▸ List.mem_cons_self, rfl, rfl, Pass.holds_of_finishCall running holds⟩
      · exact Or.inl (unchanged (top ▸ List.mem_cons_of_mem _ outer))
  | endRetain top idle done =>
      exact Or.inl (unchanged (top ▸ List.mem_cons_of_mem _ under))

/-- What is in the set was there before and is not just dropped, or was just
inserted, or comes back from a pass without a mark. -/
theorem Stepped.registered {self next : SubscriberSet E C} {event : SubscriberEvent E C}
    (stepped : Stepped self event next) {emitter : E} {id : Nat} {callback : C}
    (registered : next.state.Registered emitter id callback) :
    self.state.Registered emitter id callback ∧ event ≠ .drop emitter id ∨
      event = .insert emitter callback id ∧ id = self.state.nextSubscriberId ∨
      ∃ pass ∈ self.passes, pass.emitter = emitter ∧ event = .endRetain emitter pass.number ∧
        pass.Holds id callback ∧
        ∀ marked, (marked, id) ∉ self.state.droppedSubscribers := by
  cases stepped with
  | insert =>
      simp only [SubscriberSetState.registered_insert_iff] at registered
      split at registered
      · rename_i fresh
        rcases fresh with ⟨rfl, rfl⟩
        exact Or.inr (Or.inl ⟨registered ▸ rfl, rfl⟩)
      · exact Or.inl ⟨registered, by simp⟩
  | activate _ => exact Or.inl ⟨registered, by simp⟩
  | drop _ =>
      rcases SubscriberSetState.registered_unsubscribe_iff.mp registered with ⟨other, before⟩
      refine Or.inl ⟨before, ?_⟩
      rintro ⟨⟩
      exact other ⟨rfl, rfl⟩
  | detach _ => exact Or.inl ⟨registered, by simp⟩
  | remove =>
      simp only [SubscriberSetState.registered_remove_iff] at registered
      exact Or.inl ⟨registered.2, by simp⟩
  | emptyRetain _ => exact Or.inl ⟨registered, by simp⟩
  | beginRetain took =>
      rcases SubscriberSetState.take_eq_some took with ⟨-, rfl⟩
      rw [SubscriberSetState.Registered, SubscriberSetState.mapOf_update] at registered
      split at registered
      · simp at registered
      · exact Or.inl ⟨registered, by simp⟩
  | call _ _ _ _ => exact Or.inl ⟨registered, by simp⟩
  | skip _ _ _ _ => exact Or.inl ⟨registered, by simp⟩
  | finishCall _ _ => exact Or.inl ⟨registered, by simp⟩
  | @endRetain pass passes top idle done =>
      simp only [SubscriberSetState.registered_putBack_iff] at registered
      split at registered
      · rename_i same
        subst same
        rcases registered with ⟨unmarked, found⟩
        rcases Option.or_eq_some_iff.mp found with inSet | ⟨-, kept⟩
        · exact Or.inl ⟨inSet, by simp⟩
        · exact Or.inr (Or.inr
            ⟨pass, top ▸ List.mem_cons_self, rfl, rfl, Or.inl kept, unmarked⟩)
      · exact Or.inl ⟨registered, by simp⟩

theorem Stepped.marked {self next : SubscriberSet E C} {event : SubscriberEvent E C}
    (stepped : Stepped self event next) {emitter : E} {id : Nat}
    (marked : (emitter, id) ∈ next.state.droppedSubscribers) :
    (emitter, id) ∈ self.state.droppedSubscribers ∨ event = .drop emitter id := by
  cases stepped with
  | drop _ =>
      rcases SubscriberSetState.mem_unsubscribe_dropped.mp marked with before | ⟨-, rfl, rfl⟩
      · exact Or.inl before
      · exact Or.inr rfl
  | beginRetain took =>
      rcases SubscriberSetState.take_eq_some took with ⟨-, rfl⟩
      exact Or.inl marked
  | endRetain _ _ _ => simp [SubscriberSetState.putBack] at marked
  | insert => exact Or.inl marked
  | activate _ => exact Or.inl marked
  | detach _ => exact Or.inl marked
  | remove => exact Or.inl marked
  | emptyRetain _ => exact Or.inl marked
  | call _ _ _ _ => exact Or.inl marked
  | skip _ _ _ _ => exact Or.inl marked
  | finishCall _ _ => exact Or.inl marked

theorem Stepped.subscribed {self next : SubscriberSet E C} {event : SubscriberEvent E C}
    (stepped : Stepped self event next) {emitter : E} {id : Nat}
    (subscribed : (emitter, id) ∈ next.subscriptions) :
    (emitter, id) ∈ self.subscriptions ∨ ∃ callback, event = .insert emitter callback id := by
  cases stepped with
  | insert =>
      rcases List.mem_cons.mp subscribed with isFirst | before
      · rcases isFirst with ⟨⟩
        exact Or.inr ⟨_, rfl⟩
      · exact Or.inl before
  | drop _ => exact Or.inl (List.mem_filter.mp subscribed).1
  | detach _ => exact Or.inl (List.mem_filter.mp subscribed).1
  | beginRetain _ => exact Or.inl subscribed
  | endRetain _ _ _ => exact Or.inl subscribed
  | activate _ => exact Or.inl subscribed
  | remove => exact Or.inl subscribed
  | emptyRetain _ => exact Or.inl subscribed
  | call _ _ _ _ => exact Or.inl subscribed
  | skip _ _ _ _ => exact Or.inl subscribed
  | finishCall _ _ => exact Or.inl subscribed

theorem Stepped.nextSubscriberId {self next : SubscriberSet E C} {event : SubscriberEvent E C}
    (stepped : Stepped self event next) :
    self.state.nextSubscriberId ≤ next.state.nextSubscriberId ∧
      ∀ {emitter callback id}, event = .insert emitter callback id →
        id = self.state.nextSubscriberId ∧ id < next.state.nextSubscriberId := by
  cases stepped with
  | insert =>
      constructor
      · exact Nat.le_succ _
      · rintro _ _ _ ⟨⟩
        exact ⟨rfl, Nat.lt_succ_self _⟩
  | beginRetain took =>
      rcases SubscriberSetState.take_eq_some took with ⟨-, rfl⟩
      exact ⟨le_rfl, nofun⟩
  | drop _ => exact ⟨(SubscriberSetState.unsubscribe_next ..).ge, nofun⟩
  | activate _ => exact ⟨le_rfl, nofun⟩
  | detach _ => exact ⟨le_rfl, nofun⟩
  | remove => exact ⟨le_rfl, nofun⟩
  | emptyRetain _ => exact ⟨le_rfl, nofun⟩
  | call _ _ _ _ => exact ⟨le_rfl, nofun⟩
  | skip _ _ _ _ => exact ⟨le_rfl, nofun⟩
  | finishCall _ _ => exact ⟨le_rfl, nofun⟩
  | endRetain _ _ _ => exact ⟨le_rfl, nofun⟩

theorem Stepped.nextPass {self next : SubscriberSet E C} {event : SubscriberEvent E C}
    (stepped : Stepped self event next) :
    self.nextPass ≤ next.nextPass ∧
      ∀ {emitter number}, event = .beginRetain emitter number →
        number = self.nextPass ∧ number < next.nextPass := by
  cases stepped with
  | beginRetain took =>
      constructor
      · exact Nat.le_succ _
      · rintro _ _ ⟨⟩
        exact ⟨rfl, Nat.lt_succ_self _⟩
  | insert => exact ⟨le_rfl, nofun⟩
  | drop _ => exact ⟨le_rfl, nofun⟩
  | activate _ => exact ⟨le_rfl, nofun⟩
  | detach _ => exact ⟨le_rfl, nofun⟩
  | remove => exact ⟨le_rfl, nofun⟩
  | emptyRetain _ => exact ⟨le_rfl, nofun⟩
  | call _ _ _ _ => exact ⟨le_rfl, nofun⟩
  | skip _ _ _ _ => exact ⟨le_rfl, nofun⟩
  | finishCall _ _ => exact ⟨le_rfl, nofun⟩
  | endRetain _ _ _ => exact ⟨le_rfl, nofun⟩

theorem Stepped.active {self next : SubscriberSet E C} {event : SubscriberEvent E C}
    (stepped : Stepped self event next) {id : Nat}
    (isActive : id ∈ self.active ∨ event = .activate id) : id ∈ next.active := by
  cases stepped with
  | activate _ =>
      rcases isActive with before | ⟨⟨⟩⟩
      · exact List.mem_cons_of_mem _ before
      · exact List.mem_cons_self
  | insert => exact isActive.resolve_right nofun
  | drop _ => exact isActive.resolve_right nofun
  | detach _ => exact isActive.resolve_right nofun
  | remove => exact isActive.resolve_right nofun
  | beginRetain _ => exact isActive.resolve_right nofun
  | emptyRetain _ => exact isActive.resolve_right nofun
  | call _ _ _ _ => exact isActive.resolve_right nofun
  | skip _ _ _ _ => exact isActive.resolve_right nofun
  | finishCall _ _ => exact isActive.resolve_right nofun
  | endRetain _ _ _ => exact isActive.resolve_right nofun

/-- The numbers of the passes under way are those of before, or the next one. -/
theorem Stepped.numbers {self next : SubscriberSet E C} {event : SubscriberEvent E C}
    (stepped : Stepped self event next) {pass : Pass E C} (under : pass ∈ next.passes) :
    (∃ old ∈ self.passes, old.number = pass.number ∧ old.emitter = pass.emitter) ∨
      event = .beginRetain pass.emitter self.nextPass ∧ pass.number = self.nextPass := by
  have unchanged (old : pass ∈ self.passes) :
      ∃ old ∈ self.passes, old.number = pass.number ∧ old.emitter = pass.emitter :=
    ⟨pass, old, rfl, rfl⟩
  cases stepped with
  | insert => exact Or.inl (unchanged under)
  | activate _ => exact Or.inl (unchanged under)
  | drop _ => exact Or.inl (unchanged under)
  | detach _ => exact Or.inl (unchanged under)
  | remove => exact Or.inl (unchanged under)
  | emptyRetain _ => exact Or.inl (unchanged under)
  | beginRetain took =>
      rcases List.mem_cons.mp under with rfl | outer
      · exact Or.inr ⟨rfl, rfl⟩
      · exact Or.inl (unchanged outer)
  | @call first _ _ _ _ top _ _ _ =>
      rcases List.mem_cons.mp under with rfl | outer
      · exact Or.inl ⟨first, top ▸ List.mem_cons_self, rfl, rfl⟩
      · exact Or.inl (unchanged (top ▸ List.mem_cons_of_mem _ outer))
  | @skip first _ _ _ _ top _ _ _ =>
      rcases List.mem_cons.mp under with rfl | outer
      · exact Or.inl ⟨first, top ▸ List.mem_cons_self, rfl, rfl⟩
      · exact Or.inl (unchanged (top ▸ List.mem_cons_of_mem _ outer))
  | @finishCall first _ _ _ _ top _ =>
      rcases List.mem_cons.mp under with rfl | outer
      · exact Or.inl ⟨first, top ▸ List.mem_cons_self, rfl, rfl⟩
      · exact Or.inl (unchanged (top ▸ List.mem_cons_of_mem _ outer))
  | endRetain top _ _ =>
      exact Or.inl (unchanged (top ▸ List.mem_cons_of_mem _ under))

/-- A callback is called by a pass that holds it. -/
theorem Stepped.call_holds {self next : SubscriberSet E C} {number id : Nat}
    (stepped : Stepped self (.call number id) next) :
    ∃ pass ∈ self.passes, pass.number = number ∧ ∃ callback, pass.Holds id callback := by
  cases stepped with
  | @call pass _ _ callback _ top _ isNext _ =>
      exact ⟨pass, top ▸ List.mem_cons_self, rfl, callback,
        Or.inr (Or.inr (isNext ▸ List.mem_cons_self))⟩

theorem Stepped.drop_subscribed {self next : SubscriberSet E C} {emitter : E} {id : Nat}
    (stepped : Stepped self (.drop emitter id) next) : (emitter, id) ∈ self.subscriptions := by
  cases stepped with
  | drop subscribed => exact subscribed

/-! ## Provenance -/

/-- Everything in the state stems from a label of the run, and the numbers handed
out are new. -/
structure Consistent (events : List (SubscriberEvent E C)) (reached : SubscriberSet E C) : Prop where
  registered : ∀ {emitter id callback}, reached.state.Registered emitter id callback →
    .insert emitter callback id ∈ events
  held : ∀ {pass id callback}, pass ∈ reached.passes → pass.Holds id callback →
    .insert pass.emitter callback id ∈ events
  subscribed : ∀ {emitter id}, (emitter, id) ∈ reached.subscriptions →
    ∃ callback, .insert emitter callback id ∈ events
  dropped : ∀ {emitter id}, .drop emitter id ∈ events →
    ∃ callback, .insert emitter callback id ∈ events
  marked : ∀ {emitter id}, (emitter, id) ∈ reached.state.droppedSubscribers →
    .drop emitter id ∈ events
  inserted : ∀ {emitter callback id}, .insert emitter callback id ∈ events →
    id < reached.state.nextSubscriberId
  unique : ∀ {emitter other callback otherCallback id}, .insert emitter callback id ∈ events →
    .insert other otherCallback id ∈ events → emitter = other ∧ callback = otherCallback
  activated : ∀ {id}, .activate id ∈ events → id ∈ reached.active
  numbered : ∀ {pass}, pass ∈ reached.passes → pass.number < reached.nextPass
  begun : ∀ {emitter number}, .beginRetain emitter number ∈ events → number < reached.nextPass
  called : ∀ {number id}, .call number id ∈ events → number < reached.nextPass

omit [DecidableEq E] in
theorem consistent_new : Consistent [] (new : SubscriberSet E C) where
  registered := by simp [new, SubscriberSetState.Registered, SubscriberSetState.mapOf,
    SubscriberSetState.new]
  held := nofun
  subscribed := nofun
  dropped := nofun
  marked := nofun
  inserted := nofun
  unique := nofun
  activated := nofun
  numbered := nofun
  begun := nofun
  called := nofun

theorem Consistent.step {events : List (SubscriberEvent E C)} {event : SubscriberEvent E C}
    {self next : SubscriberSet E C} (consistent : Consistent events self)
    (steps : self.step event = some next) : Consistent (events ++ [event]) next := by
  have stepped := stepped_of_step steps
  exact {
    registered := by
      intro emitter id callback registered
      rcases stepped.registered registered with ⟨before, -⟩ | ⟨rfl, -⟩ | ⟨pass, under, rfl, -, held, -⟩
      · exact mem_snoc.mpr (Or.inl (consistent.registered before))
      · exact mem_snoc.mpr (Or.inr rfl)
      · exact mem_snoc.mpr (Or.inl (consistent.held under held))
    held := by
      intro pass id callback under holds
      rcases stepped.holds under holds with ⟨old, under, -, same, holds⟩ | ⟨-, -, registered⟩
      · exact mem_snoc.mpr (Or.inl (same ▸ consistent.held under holds))
      · exact mem_snoc.mpr (Or.inl (consistent.registered registered))
    subscribed := by
      intro emitter id subscribed
      rcases stepped.subscribed subscribed with before | ⟨callback, rfl⟩
      · rcases consistent.subscribed before with ⟨callback, inserted⟩
        exact ⟨callback, mem_snoc.mpr (Or.inl inserted)⟩
      · exact ⟨callback, mem_snoc.mpr (Or.inr rfl)⟩
    dropped := by
      intro emitter id dropped
      have inserted : ∃ callback, .insert emitter callback id ∈ events := by
        rcases mem_snoc.mp dropped with before | rfl
        · exact consistent.dropped before
        · exact consistent.subscribed stepped.drop_subscribed
      rcases inserted with ⟨callback, inserted⟩
      exact ⟨callback, mem_snoc.mpr (Or.inl inserted)⟩
    marked := by
      intro emitter id marked
      exact mem_snoc.mpr ((stepped.marked marked).imp consistent.marked fun last => last)
    inserted := by
      intro emitter callback id inserted
      rcases mem_snoc.mp inserted with before | isLast
      · exact (consistent.inserted before).trans_le stepped.nextSubscriberId.1
      · exact (stepped.nextSubscriberId.2 isLast).2
    unique := by
      intro emitter other callback otherCallback id first second
      rcases mem_snoc.mp first with before | isLast <;>
        rcases mem_snoc.mp second with otherBefore | otherLast
      · exact consistent.unique before otherBefore
      · exact absurd (stepped.nextSubscriberId.2 otherLast).1 (consistent.inserted before).ne
      · exact absurd (stepped.nextSubscriberId.2 isLast).1 (consistent.inserted otherBefore).ne
      · rcases isLast.symm.trans otherLast with ⟨⟩
        exact ⟨rfl, rfl⟩
    activated := by
      intro id activated
      exact stepped.active ((mem_snoc.mp activated).imp consistent.activated fun last => last)
    numbered := by
      intro pass under
      rcases stepped.numbers under with ⟨old, before, same, -⟩ | ⟨begins, same⟩
      · exact same ▸ (consistent.numbered before).trans_le stepped.nextPass.1
      · exact same ▸ (stepped.nextPass.2 begins).2
    begun := by
      intro emitter number begun
      rcases mem_snoc.mp begun with before | isLast
      · exact (consistent.begun before).trans_le stepped.nextPass.1
      · exact (stepped.nextPass.2 isLast).2
    called := by
      intro number id called
      rcases mem_snoc.mp called with before | rfl
      · exact (consistent.called before).trans_le stepped.nextPass.1
      · rcases stepped.call_holds with ⟨pass, under, rfl, -⟩
        exact (consistent.numbered under).trans_le stepped.nextPass.1 }

theorem consistent_of_run {allowed : SubscriberSet E C → SubscriberEvent E C → Prop}
    {events : List (SubscriberEvent E C)} {self : SubscriberSet E C}
    (run : Run step allowed new events self) : Consistent events self :=
  run.invariant Consistent consistent_new fun consistent _ steps => consistent.step steps

end SubscriberSet

end Gpui
