import Gpui.Subscription.Invariants

/-!
# Retained subscriptions

A subscriber that nothing asked to leave is in the map of its emitter or held by
a pass over it.  The passes under way form a stack, and what a pass took is either
called, passed ours, or still waiting.  Together these say what the end of a pass
leaves behind.
-/

namespace Gpui

open Gpui.Library

variable {E C : Type} [DecidableEq E]

namespace Pass

omit [DecidableEq E] in
theorem exists_holds_call {self : Pass E C} {id called : Nat} {callback held : C}
    {rest : List (Nat × C)} (idle : self.current = none)
    (next : self.rest = (called, callback) :: rest) (holds : self.Holds id held) :
    ({ self with current := some (called, callback), rest } : Pass E C).Holds id held := by
  rcases holds with kept | running | waiting
  · exact Or.inl kept
  · rw [idle] at running
    cases running
  · rw [next] at waiting
    rcases List.mem_cons.mp waiting with isFirst | later
    · exact Or.inr (Or.inl (congrArg some isFirst.symm))
    · exact Or.inr (Or.inr later)

omit [DecidableEq E] in
theorem exists_holds_skip {self : Pass E C} {id skipped : Nat} {callback held : C}
    {rest : List (Nat × C)} (next : self.rest = (skipped, callback) :: rest)
    (holds : self.Holds id held) :
    ∃ still, ({ self with kept := self.kept.insert skipped callback, rest } : Pass E C).Holds
      id still := by
  by_cases same : id = skipped
  · exact ⟨callback, Or.inl (by simp [same])⟩
  · rcases holds with kept | running | waiting
    · exact ⟨held, Or.inl (by simpa [same] using kept)⟩
    · exact ⟨held, Or.inr (Or.inl running)⟩
    · rw [next] at waiting
      rcases List.mem_cons.mp waiting with isFirst | later
      · exact absurd (congrArg Prod.fst isFirst) same
      · exact ⟨held, Or.inr (Or.inr later)⟩

omit [DecidableEq E] in
theorem exists_holds_finishCall {self : Pass E C} {id finished : Nat} {callback held : C}
    {retained : Bool} (running : self.current = some (finished, callback))
    (stays : id = finished → retained = true) (holds : self.Holds id held) :
    ∃ still, ({ self with
      kept := if retained then self.kept.insert finished callback else self.kept
      current := none } : Pass E C).Holds id still := by
  by_cases same : id = finished
  · exact ⟨callback, Or.inl (by simp [same, stays same])⟩
  · rcases holds with kept | isCurrent | waiting
    · refine ⟨held, Or.inl ?_⟩
      cases retained with
      | false => exact kept
      | true => simpa [same] using kept
    · rw [running] at isCurrent
      rcases isCurrent with ⟨⟩
      exact absurd rfl same
    · exact ⟨held, Or.inr (Or.inr waiting)⟩

end Pass

namespace SubscriberSet

/-! ## Where a subscriber is -/

/-- The subscriber is in the map of its emitter, or a pass over it holds it. -/
def Located (self : SubscriberSet E C) (emitter : E) (id : Nat) : Prop :=
  ∃ callback, self.state.Registered emitter id callback ∨
    ∃ pass ∈ self.passes, pass.emitter = emitter ∧ pass.Holds id callback

/-- The label makes the subscriber leave. -/
def Leaves (emitter : E) (id : Nat) : SubscriberEvent E C → Prop
  | .drop dropped droppedId => dropped = emitter ∧ droppedId = id
  | .remove removed => removed = emitter
  | .finishCall _ finished retained => finished = id ∧ retained = false
  | _ => False

private theorem located_of_registered {self next : SubscriberSet E C}
    {event : SubscriberEvent E C} (stepped : Stepped self event next) {emitter : E} {id : Nat}
    {callback : C} (registered : self.state.Registered emitter id callback)
    (stays : ¬ Leaves emitter id event)
    (unmarked : ∀ marked, (marked, id) ∉ self.state.droppedSubscribers) :
    next.Located emitter id := by
  have unchanged (same : next.state = self.state) : next.Located emitter id :=
    ⟨callback, Or.inl (same ▸ registered)⟩
  cases stepped with
  | @insert inserted new =>
      by_cases fresh : emitter = inserted ∧ id = self.state.nextSubscriberId
      · exact ⟨new, Or.inl (SubscriberSetState.registered_insert_iff.mpr (by rw [if_pos fresh]))⟩
      · refine ⟨callback, Or.inl (SubscriberSetState.registered_insert_iff.mpr ?_)⟩
        rwa [if_neg fresh]
  | activate _ => exact unchanged rfl
  | drop _ =>
      refine ⟨callback, Or.inl (SubscriberSetState.registered_unsubscribe_iff.mpr ?_)⟩
      constructor
      · rintro ⟨rfl, rfl⟩
        exact stays ⟨rfl, rfl⟩
      · exact registered
  | detach _ => exact unchanged rfl
  | @remove removed =>
      have still : (self.state.remove self.active removed).2.Registered emitter id callback :=
        SubscriberSetState.registered_remove_iff.mpr ⟨fun same => stays same.symm, registered⟩
      exact ⟨callback, Or.inl still⟩
  | @beginRetain begun subscribers _ took =>
      rcases SubscriberSetState.take_eq_some took with ⟨rfl, rfl⟩
      by_cases same : emitter = begun
      · subst same
        have taken := OrderedMap.get?_eq_some_iff.mp registered
        exact ⟨callback, Or.inr ⟨_, List.mem_cons_self, rfl, Or.inr (Or.inr taken)⟩⟩
      · refine ⟨callback, Or.inl ?_⟩
        rw [SubscriberSetState.Registered, SubscriberSetState.mapOf_update, if_neg same]
        exact registered
  | emptyRetain _ => exact unchanged rfl
  | call _ _ _ _ => exact unchanged rfl
  | skip _ _ _ _ => exact unchanged rfl
  | finishCall _ _ => exact unchanged rfl
  | @endRetain pass _ _ _ _ =>
      refine ⟨callback, Or.inl (SubscriberSetState.registered_putBack_iff.mpr ?_)⟩
      by_cases same : emitter = pass.emitter
      · subst same
        rw [if_pos rfl]
        exact ⟨unmarked, Option.or_eq_some_iff.mpr (Or.inl registered)⟩
      · rwa [if_neg same]

private theorem located_of_held {self next : SubscriberSet E C} {event : SubscriberEvent E C}
    (stepped : Stepped self event next) {emitter : E} {id : Nat} {callback : C}
    {pass : Pass E C} (under : pass ∈ self.passes) (ours : pass.emitter = emitter)
    (holds : pass.Holds id callback) (stays : ¬ Leaves emitter id event)
    (unmarked : ∀ marked, (marked, id) ∉ self.state.droppedSubscribers) :
    next.Located emitter id := by
  have unchanged (still : pass ∈ next.passes) : next.Located emitter id :=
    ⟨callback, Or.inr ⟨pass, still, ours, holds⟩⟩
  cases stepped with
  | insert => exact unchanged under
  | activate _ => exact unchanged under
  | drop _ => exact unchanged under
  | detach _ => exact unchanged under
  | remove => exact unchanged under
  | beginRetain _ => exact unchanged (List.mem_cons_of_mem _ under)
  | emptyRetain _ => exact unchanged under
  | call top idle isNext _ =>
      rcases List.mem_cons.mp (top ▸ under) with rfl | outer
      · exact ⟨callback, Or.inr
          ⟨_, List.mem_cons_self, ours, Pass.exists_holds_call idle isNext holds⟩⟩
      · exact unchanged (List.mem_cons_of_mem _ outer)
  | skip top _ isNext _ =>
      rcases List.mem_cons.mp (top ▸ under) with rfl | outer
      · rcases Pass.exists_holds_skip isNext holds with ⟨still, holds⟩
        exact ⟨still, Or.inr ⟨_, List.mem_cons_self, ours, holds⟩⟩
      · exact unchanged (List.mem_cons_of_mem _ outer)
  | @finishCall _ _ finished _ retained top running =>
      rcases List.mem_cons.mp (top ▸ under) with rfl | outer
      · have keeps : id = finished → retained = true := by
          rintro rfl
          exact Bool.of_not_eq_false fun gone => stays ⟨rfl, gone⟩
        rcases Pass.exists_holds_finishCall running keeps holds with ⟨still, holds⟩
        exact ⟨still, Or.inr ⟨_, List.mem_cons_self, ours, holds⟩⟩
      · exact unchanged (List.mem_cons_of_mem _ outer)
  | endRetain top idle done =>
      rcases List.mem_cons.mp (top ▸ under) with rfl | outer
      · have kept : pass.kept.get? id = some callback := by
          rcases holds with kept | running | waiting
          · exact kept
          · rw [idle] at running
            cases running
          · rw [done] at waiting
            cases waiting
        cases inSet : (self.state.mapOf pass.emitter).get? id with
        | none =>
            refine ⟨callback, Or.inl (SubscriberSetState.registered_putBack_iff.mpr ?_)⟩
            rw [if_pos ours.symm, inSet]
            exact ⟨unmarked, kept⟩
        | some newer =>
            refine ⟨newer, Or.inl (SubscriberSetState.registered_putBack_iff.mpr ?_)⟩
            rw [if_pos ours.symm, inSet]
            exact ⟨unmarked, rfl⟩
      · exact unchanged outer

/-- A subscriber that is somewhere and does not leave is somewhere. -/
theorem Stepped.located {self next : SubscriberSet E C} {event : SubscriberEvent E C}
    (stepped : Stepped self event next) {emitter : E} {id : Nat}
    (located : self.Located emitter id) (stays : ¬ Leaves emitter id event)
    (unmarked : ∀ marked, (marked, id) ∉ self.state.droppedSubscribers) :
    next.Located emitter id := by
  rcases located with ⟨callback, registered | ⟨pass, under, ours, holds⟩⟩
  · exact located_of_registered stepped registered stays unmarked
  · exact located_of_held stepped under ours holds stays unmarked

/-- Inserted by the labels, and not made to leave by any of them afterwards. -/
def Lives (emitter : E) (callback : C) (id : Nat) (events : List (SubscriberEvent E C)) : Prop :=
  .insert emitter callback id ∈ events ∧ .drop emitter id ∉ events ∧
    (∀ number, .finishCall number id false ∉ events) ∧
    ¬ Before (.insert emitter callback id) (.remove emitter) events

omit [DecidableEq E] in
theorem Lives.of_append {emitter : E} {callback : C} {id : Nat}
    {events more : List (SubscriberEvent E C)} (lives : Lives emitter callback id (events ++ more))
    (inserted : .insert emitter callback id ∈ events) : Lives emitter callback id events := by
  rcases lives with ⟨-, notDropped, notFinished, notRemoved⟩
  refine ⟨inserted, ?_, ?_, ?_⟩
  · exact fun dropped => notDropped (List.mem_append_left _ dropped)
  · exact fun number finished => notFinished number (List.mem_append_left _ finished)
  · exact fun removed => notRemoved (removed.append more)

omit [DecidableEq E] in
theorem Lives.unmarked {emitter : E} {callback : C} {id : Nat}
    {events : List (SubscriberEvent E C)} {reached : SubscriberSet E C}
    (lives : Lives emitter callback id events) (consistent : Consistent events reached)
    (marked : E) : (marked, id) ∉ reached.state.droppedSubscribers := by
  intro member
  have dropped := consistent.marked member
  rcases consistent.dropped dropped with ⟨_, inserted⟩
  rcases consistent.unique lives.1 inserted with ⟨rfl, -⟩
  exact lives.2.1 dropped

/-- The subscribers of a run that have not been made to leave are somewhere. -/
theorem located_of_run {allowed : SubscriberSet E C → SubscriberEvent E C → Prop}
    {events : List (SubscriberEvent E C)} {reached : SubscriberSet E C}
    (run : Run step allowed new events reached) {emitter : E} {callback : C} {id : Nat}
    (lives : Lives emitter callback id events) : reached.Located emitter id := by
  have invariant := run.invariant
    (fun events reached => Consistent events reached ∧
      (Lives emitter callback id events → reached.Located emitter id))
    ⟨consistent_new, fun lives => nomatch lives.1⟩ ?_
  · exact invariant.2 lives
  rintro events self event next ⟨consistent, located⟩ _ steps
  have stepped := stepped_of_step steps
  refine ⟨consistent.step steps, fun lives => ?_⟩
  rcases mem_snoc.mp lives.1 with already | rfl
  · have stays : ¬ Leaves emitter id event := by
      rcases lives with ⟨-, notDropped, notFinished, notRemoved⟩
      intro leaves
      cases event with
      | drop _ _ =>
          rcases leaves with ⟨rfl, rfl⟩
          exact notDropped (mem_snoc.mpr (Or.inr rfl))
      | remove _ =>
          rcases leaves with ⟨⟩
          exact notRemoved (before_snoc_iff.mpr (Or.inr ⟨rfl, already⟩))
      | finishCall number _ _ =>
          rcases leaves with ⟨rfl, rfl⟩
          exact notFinished number (mem_snoc.mpr (Or.inr rfl))
      | _ => exact leaves
    have earlier := lives.of_append already
    exact stepped.located (located earlier) stays (earlier.unmarked consistent)
  · cases stepped with
    | insert =>
        refine ⟨callback, Or.inl (SubscriberSetState.registered_insert_iff.mpr ?_)⟩
        rw [if_pos ⟨rfl, rfl⟩]

/-! ## The passes as a stack -/

/-- The subscriber a label calls, where the pass is the given one. -/
def called (number : Nat) : SubscriberEvent E C → Option Nat
  | .call pass id => if pass = number then some id else none
  | _ => none

/-- The subscriber a label calls or passes over. -/
def visited (number : Nat) : SubscriberEvent E C → Option Nat
  | .call pass id => if pass = number then some id else none
  | .skip pass id => if pass = number then some id else none
  | _ => none

/-- The subscribers that a pass called, in order. -/
def calls (number : Nat) (events : List (SubscriberEvent E C)) : List Nat :=
  events.filterMap (called number)

/-- The subscribers that a pass called or passed over, in order. -/
def visits (number : Nat) (events : List (SubscriberEvent E C)) : List Nat :=
  events.filterMap (visited number)

omit [DecidableEq E] in
theorem mem_visits_of_call {number id : Nat} {events : List (SubscriberEvent E C)}
    (member : .call number id ∈ events) : id ∈ visits number events :=
  List.mem_filterMap.mpr ⟨_, member, if_pos rfl⟩

omit [DecidableEq E] in
theorem count_calls {number id : Nat} {events : List (SubscriberEvent E C)}
    (notSkipped : .skip number id ∉ events) :
    (calls number events).count id = (visits number events).count id := by
  induction events with
  | nil => rfl
  | cons event events ih =>
      rcases List.mem_cons.not.mp notSkipped |> not_or.mp with ⟨notHere, notLater⟩
      have later := ih notLater
      simp only [calls, visits, List.filterMap_cons] at later ⊢
      cases event with
      | call pass other =>
          by_cases same : pass = number <;> simp [called, visited, same, later, List.count_cons]
      | skip pass other =>
          by_cases same : pass = number
          · have differs : other ≠ id := fun sameId => notHere (by rw [same, sameId])
            simpa [called, visited, same, differs] using later
          · simpa [called, visited, same] using later
      | _ => exact later

/-- What a step does to the stack of passes. -/
theorem Stepped.passes {self next : SubscriberSet E C} {event : SubscriberEvent E C}
    (stepped : Stepped self event next) :
    next.passes = self.passes ∧ (∀ number, visited number event = none) ∨
      (∃ pass, next.passes = pass :: self.passes ∧ pass.number = self.nextPass ∧
        ∀ number, visited number event = none) ∨
      (∃ pass later passes, self.passes = pass :: passes ∧ next.passes = later :: passes ∧
        later.number = pass.number ∧
        (visited pass.number event).toList ++ later.rest.map Prod.fst = pass.rest.map Prod.fst ∧
        ∀ number, pass.number ≠ number → visited number event = none) ∨
      ∃ pass, self.passes = pass :: next.passes ∧ pass.rest = [] ∧
        event = .endRetain pass.emitter pass.number := by
  cases stepped with
  | insert => exact Or.inl ⟨rfl, fun _ => rfl⟩
  | activate _ => exact Or.inl ⟨rfl, fun _ => rfl⟩
  | drop _ => exact Or.inl ⟨rfl, fun _ => rfl⟩
  | detach _ => exact Or.inl ⟨rfl, fun _ => rfl⟩
  | remove => exact Or.inl ⟨rfl, fun _ => rfl⟩
  | emptyRetain _ => exact Or.inl ⟨rfl, fun _ => rfl⟩
  | beginRetain _ => exact Or.inr (Or.inl ⟨_, rfl, rfl, fun _ => rfl⟩)
  | call top _ isNext _ =>
      refine Or.inr (Or.inr (Or.inl ⟨_, _, _, top, rfl, rfl, ?_, ?_⟩))
      · simp [visited, isNext]
      · exact fun number other => if_neg other
  | skip top _ isNext _ =>
      refine Or.inr (Or.inr (Or.inl ⟨_, _, _, top, rfl, rfl, ?_, ?_⟩))
      · simp [visited, isNext]
      · exact fun number other => if_neg other
  | finishCall top _ =>
      exact Or.inr (Or.inr (Or.inl ⟨_, _, _, top, rfl, rfl, rfl, fun _ _ => rfl⟩))
  | endRetain top _ done => exact Or.inr (Or.inr (Or.inr ⟨_, top, done, rfl⟩))

/-- While a pass runs, the passes around it wait unchanged below it, and it has
visited what it took but for the rest.  Afterwards its number is gone. -/
def Nested (number : Nat) (outer : List (Pass E C)) (taken : List Nat)
    (events : List (SubscriberEvent E C)) (reached : SubscriberSet E C) : Prop :=
  number < reached.nextPass ∧
    ((∀ pass ∈ reached.passes, pass.number ≠ number) ∨
      ∃ above pass, reached.passes = above ++ pass :: outer ∧ pass.number = number ∧
        (∀ inner ∈ above, number < inner.number) ∧
        visits number events ++ pass.rest.map Prod.fst = taken)

theorem Nested.step {number : Nat} {outer : List (Pass E C)} {taken : List Nat}
    (fresh : ∀ pass ∈ outer, pass.number ≠ number) {events : List (SubscriberEvent E C)}
    {event : SubscriberEvent E C} {self next : SubscriberSet E C}
    (nested : Nested number outer taken events self) (steps : self.step event = some next) :
    Nested number outer taken (events ++ [event]) next := by
  have stepped := stepped_of_step steps
  rcases nested with ⟨below, stack⟩
  refine ⟨below.trans_le stepped.nextPass.1, ?_⟩
  have visits_snoc (nothing : visited number event = none) :
      visits number (events ++ [event]) = visits number events := by
    simp [visits, nothing]
  rcases stepped.passes with ⟨same, nothing⟩ | ⟨new, pushed, fresh, nothing⟩ |
    ⟨top, later, passes, here, there, sameNumber, visit, others⟩ | ⟨top, here, done, rfl⟩
  · rw [same, visits_snoc (nothing number)]
    exact stack
  · rw [pushed, visits_snoc (nothing number)]
    rcases stack with ended | ⟨above, pass, split, isNumber, deeper, visit⟩
    · refine Or.inl fun pass under => ?_
      rcases List.mem_cons.mp under with rfl | old
      · exact fresh ▸ below.ne'
      · exact ended pass old
    · refine Or.inr ⟨new :: above, pass, by rw [split]; rfl, isNumber, ?_, visit⟩
      intro inner member
      rcases List.mem_cons.mp member with rfl | old
      · exact fresh ▸ below
      · exact deeper inner old
  · rw [there]
    rcases stack with ended | ⟨above, pass, split, isNumber, deeper, sofar⟩
    · refine Or.inl fun pass under => ?_
      rcases List.mem_cons.mp under with rfl | old
      · exact sameNumber ▸ ended top (here ▸ List.mem_cons_self)
      · exact ended pass (here ▸ List.mem_cons_of_mem _ old)
    · right
      rw [here] at split
      cases above with
      | nil =>
          rcases split with ⟨⟩
          refine ⟨[], later, rfl, sameNumber.trans isNumber, nofun, ?_⟩
          rw [← sofar, ← visit, isNumber]
          cases look : visited number event <;> simp [visits, look]
      | cons inner above =>
          rcases split with ⟨⟩
          have deep : number < top.number := deeper top List.mem_cons_self
          refine ⟨later :: above, pass, rfl, isNumber, ?_, ?_⟩
          · intro inner member
            rcases List.mem_cons.mp member with rfl | old
            · exact sameNumber ▸ deep
            · exact deeper inner (List.mem_cons_of_mem _ old)
          · rw [visits_snoc (others number deep.ne')]
            exact sofar
  · rw [visits_snoc rfl]
    rcases stack with ended | ⟨above, pass, split, isNumber, deeper, sofar⟩
    · exact Or.inl fun pass under => ended pass (here ▸ List.mem_cons_of_mem _ under)
    · rw [here] at split
      cases above with
      | nil =>
          rcases split with ⟨⟩
          exact Or.inl fresh
      | cons inner above =>
          rcases List.cons.inj split with ⟨-, rest⟩
          exact Or.inr ⟨above, pass, rest, isNumber,
            fun inner member => deeper inner (List.mem_cons_of_mem _ member), sofar⟩

/-- From the beginning of a pass to its end. -/
structure Retaining (emitter : E) (number : Nat) (start : SubscriberSet E C)
    (during : List (SubscriberEvent E C)) (last : SubscriberSet E C) : Prop where
  run : ∃ begun ended, start.step (.beginRetain emitter number) = some begun ∧
    Run step (fun _ _ => True) begun during ended ∧
    ended.step (.endRetain emitter number) = some last

/-- A pass leaves the stack as it found it, and visits what it took. -/
theorem Retaining.passes_and_visits {emitter : E} {number : Nat} {start last : SubscriberSet E C}
    {during : List (SubscriberEvent E C)} (retaining : Retaining emitter number start during last)
    (numbered : ∀ pass ∈ start.passes, pass.number < start.nextPass) :
    last.passes = start.passes ∧
      visits number during = (start.state.mapOf emitter).entries.map Prod.fst := by
  rcases retaining.run with ⟨begun, ended, begins, run, ends⟩
  have fresh : ∀ pass ∈ start.passes, pass.number ≠ start.nextPass :=
    fun pass under => (numbered pass under).ne
  cases stepped_of_step begins with
  | beginRetain took =>
      rcases SubscriberSetState.take_eq_some took with ⟨rfl, -⟩
      have nested : Nested start.nextPass start.passes
          ((start.state.mapOf emitter).entries.map Prod.fst) during ended := by
        apply run.invariant (Nested _ _ _)
        · exact ⟨Nat.lt_succ_self _, Or.inr ⟨[], _, rfl, rfl, nofun, rfl⟩⟩
        · exact fun nested _ steps => nested.step fresh steps
      generalize number_eq : start.nextPass = number at ends nested
      cases stepped_of_step ends with
      | @endRetain pass passes top idle done =>
          rcases nested.2 with gone | ⟨above, inner, split, isNumber, deeper, visit⟩
          · exact absurd rfl (gone pass (top ▸ List.mem_cons_self))
          · rw [top] at split
            cases above with
            | nil =>
                rcases split with ⟨⟩
                refine ⟨rfl, ?_⟩
                rw [done] at visit
                simpa using visit
            | cons deep above =>
                rcases split with ⟨⟩
                exact absurd (deeper pass List.mem_cons_self) (lt_irrefl _)

/-- Ids handed out during a run are not older than its start. -/
theorem le_of_inserted {first last : SubscriberSet E C} {events : List (SubscriberEvent E C)}
    {allowed : SubscriberSet E C → SubscriberEvent E C → Prop}
    (run : Run step allowed first events last) {emitter : E} {callback : C} {id : Nat}
    (inserted : .insert emitter callback id ∈ events) : first.state.nextSubscriberId ≤ id := by
  have invariant := run.invariant
    (fun events reached => first.state.nextSubscriberId ≤ reached.state.nextSubscriberId ∧
      (.insert emitter callback id ∈ events → first.state.nextSubscriberId ≤ id))
    ⟨le_rfl, nofun⟩ ?_
  · exact invariant.2 inserted
  rintro events self event next ⟨grows, older⟩ _ steps
  have stepped := stepped_of_step steps
  refine ⟨grows.trans stepped.nextSubscriberId.1, fun member => ?_⟩
  rcases mem_snoc.mp member with already | isLast
  · exact older already
  · exact grows.trans (stepped.nextSubscriberId.2 isLast).1.ge

/-- A subscriber that is active stays so and is never passed over. -/
theorem not_skipped_of_active {first last : SubscriberSet E C}
    {events : List (SubscriberEvent E C)}
    {allowed : SubscriberSet E C → SubscriberEvent E C → Prop}
    (run : Run step allowed first events last) {id : Nat} (isActive : id ∈ first.active)
    (number : Nat) : .skip number id ∉ events := by
  have invariant := run.invariant
    (fun events reached => id ∈ reached.active ∧ .skip number id ∉ events)
    ⟨isActive, nofun⟩ ?_
  · exact invariant.2
  rintro events self event next ⟨still, notSkipped⟩ _ steps
  have stepped := stepped_of_step steps
  refine ⟨stepped.active (Or.inl still), fun member => ?_⟩
  rcases mem_snoc.mp member with already | rfl
  · exact notSkipped already
  · cases stepped with
    | skip _ _ _ inactive => exact inactive still

/-- The label speaks of the emitter. -/
def Touches (emitter : E) : SubscriberEvent E C → Prop
  | .insert touched _ _ => touched = emitter
  | .drop touched _ => touched = emitter
  | .remove touched => touched = emitter
  | .beginRetain touched _ => touched = emitter
  | .endRetain touched _ => touched = emitter
  | _ => False

theorem Stepped.subscribers_eq {self next : SubscriberSet E C} {event : SubscriberEvent E C}
    (stepped : Stepped self event next) {emitter : E} (untouched : ¬ Touches emitter event) :
    next.state.subscribers emitter = self.state.subscribers emitter := by
  cases stepped with
  | insert => exact Function.update_of_ne (Ne.symm untouched) _ _
  | drop _ =>
      simp only [SubscriberSetState.unsubscribe]
      split
      · rfl
      · exact Function.update_of_ne (Ne.symm untouched) _ _
      · rfl
  | remove => exact Function.update_of_ne (Ne.symm untouched) _ _
  | beginRetain took =>
      rcases SubscriberSetState.take_eq_some took with ⟨-, rfl⟩
      exact Function.update_of_ne (Ne.symm untouched) _ _
  | endRetain _ _ _ => exact Function.update_of_ne (Ne.symm untouched) _ _
  | activate _ => rfl
  | detach _ => rfl
  | emptyRetain _ => rfl
  | call _ _ _ _ => rfl
  | skip _ _ _ _ => rfl
  | finishCall _ _ => rfl

theorem subscribers_eq_of_run {first last : SubscriberSet E C}
    {events : List (SubscriberEvent E C)}
    {allowed : SubscriberSet E C → SubscriberEvent E C → Prop}
    (run : Run step allowed first events last) {emitter : E}
    (untouched : ∀ event ∈ events, ¬ Touches emitter event) :
    last.state.subscribers emitter = first.state.subscribers emitter := by
  have invariant := run.invariant
    (fun events reached => (∀ event ∈ events, ¬ Touches emitter event) →
      reached.state.subscribers emitter = first.state.subscribers emitter)
    (fun _ => rfl) ?_
  · exact invariant untouched
  intro events self event next same _ steps untouched
  have here := (stepped_of_step steps).subscribers_eq (untouched event (mem_snoc.mpr (Or.inr rfl)))
  exact here.trans (same fun event member => untouched event (mem_snoc.mpr (Or.inl member)))

/-! ## No subscriber is lost -/

/-- A subscriber that lives at the end of a pass is registered then, unless a pass
around it holds it. -/
theorem Retaining.registered {emitter other : E} {number : Nat} {start last : SubscriberSet E C}
    {before during : List (SubscriberEvent E C)}
    (reached : Run step (fun _ _ => True) new before start)
    (retaining : Retaining emitter number start during last) {callback : C} {id : Nat}
    (lives : Lives other callback id (before ++ .beginRetain emitter number :: during))
    (notAround : ∀ pass ∈ start.passes, pass.emitter = other →
      ∀ held, ¬ pass.Holds id held) :
    last.state.Registered other id callback := by
  have samePasses :=
    (retaining.passes_and_visits fun _ => (consistent_of_run reached).numbered).1
  rcases retaining.run with ⟨begun, ended, begins, run, ends⟩
  have toEnd : Run step (fun _ _ => True) new
      (before ++ .beginRetain emitter number :: during) ended :=
    reached.append (Run.cons trivial begins run)
  have located : last.Located other id :=
    (stepped_of_step ends).located (located_of_run toEnd lives) not_false
      (lives.unmarked (consistent_of_run toEnd))
  rcases located with ⟨held, registered | ⟨pass, under, ours, holds⟩⟩
  · have consistent := consistent_of_run (toEnd.snoc trivial ends)
    have inserted := List.mem_append_left [.endRetain emitter number] lives.1
    rcases consistent.unique (consistent.registered registered) inserted with ⟨-, rfl⟩
    exact registered
  · exact absurd holds (notAround pass (samePasses ▸ under) ours held)

theorem retain_loses_none {before : List (SubscriberEvent E C)} {start : SubscriberSet E C}
    (reached : Run step (fun _ _ => True) new before start) (emitter : E) :
    ((∀ pass ∈ start.passes, pass.emitter ≠ emitter) →
        start.step (.emptyRetain emitter) ≠ none →
        ∀ callback id, ¬ Lives emitter callback id before) ∧
      ∀ number during last, Retaining emitter number start during last →
        ((∀ pass ∈ start.passes, pass.emitter ≠ emitter) → ∀ callback id,
          .insert emitter callback id ∈ before → .activate id ∈ before →
          Lives emitter callback id (before ++ .beginRetain emitter number :: during) →
          (calls number during).count id = 1 ∧ last.state.Registered emitter id callback) ∧
        (∀ other callback id, .insert other callback id ∈ during →
          .call number id ∉ during ∧
            (Lives other callback id (before ++ .beginRetain emitter number :: during) →
              last.state.Registered other id callback)) ∧
        (∀ other, other ≠ emitter → (∀ event ∈ during, ¬ Touches other event) →
          last.state.subscribers other = start.state.subscribers other) ∧
        last.passes = start.passes := by
  have consistent := consistent_of_run reached
  -- nothing of the emitter is in a pass, so a living subscriber is in its map
  have registered_of_lives (outermost : ∀ pass ∈ start.passes, pass.emitter ≠ emitter)
      {callback : C} {id : Nat} (lives : Lives emitter callback id before) :
      ∃ held, start.state.Registered emitter id held := by
    rcases located_of_run reached lives with ⟨held, registered | ⟨pass, under, ours, -⟩⟩
    · exact ⟨held, registered⟩
    · exact absurd ours (outermost pass under)
  constructor
  · intro outermost empty callback id lives
    rcases registered_of_lives outermost lives with ⟨held, registered⟩
    rcases Option.ne_none_iff_exists'.mp empty with ⟨last, steps⟩
    cases stepped_of_step steps with
    | emptyRetain nothing => exact SubscriberSetState.take_ne_none registered nothing
  intro number during last retaining
  rcases retaining.passes_and_visits (fun _ => consistent.numbered) with ⟨samePasses, visited⟩
  rcases retaining.run with ⟨begun, ended, begins, run, ends⟩
  refine ⟨?_, ?_, ?_, samePasses⟩
  · intro outermost callback id inserted activated lives
    constructor
    · rcases registered_of_lives outermost (lives.of_append inserted) with ⟨held, registered⟩
      have isActive : id ∈ begun.active :=
        (stepped_of_step begins).active (Or.inl (consistent.activated activated))
      have distinct : ((start.state.mapOf emitter).entries.map Prod.fst).Nodup :=
        (List.pairwise_map.mpr (start.state.mapOf emitter).sorted).imp ne_of_lt
      have taken : id ∈ (start.state.mapOf emitter).entries.map Prod.fst :=
        List.mem_map.mpr ⟨_, OrderedMap.get?_eq_some_iff.mp registered, rfl⟩
      rw [count_calls (not_skipped_of_active run isActive number), visited]
      exact List.count_eq_one_of_mem distinct taken
    · apply retaining.registered reached lives
      exact fun pass under ours => absurd ours (outermost pass under)
  · intro other callback id inserted
    -- what was there when the pass began is older than what came during it
    have newer : start.state.nextSubscriberId ≤ id :=
      le_of_inserted (Run.cons trivial begins run) (List.mem_cons_of_mem _ inserted)
    constructor
    · intro isCalled
      have taken := visited ▸ mem_visits_of_call isCalled
      rcases List.mem_map.mp taken with ⟨⟨_, held⟩, member, rfl⟩
      have registered := consistent.registered (OrderedMap.get?_eq_some_iff.mpr member)
      exact absurd (consistent.inserted registered) (not_lt.mpr newer)
    · intro lives
      apply retaining.registered reached lives
      intro pass under _ held holds
      exact absurd (consistent.inserted (consistent.held under holds)) (not_lt.mpr newer)
  · intro other differs untouched
    calc last.state.subscribers other
        = ended.state.subscribers other := (stepped_of_step ends).subscribers_eq differs.symm
      _ = begun.state.subscribers other := subscribers_eq_of_run run untouched
      _ = start.state.subscribers other := (stepped_of_step begins).subscribers_eq differs.symm

/-- A callback inserts another subscriber of its emitter and is retained. -/
theorem retain_loses_none_inserting :
    ∃ start last : SubscriberSet Nat Nat,
      Retaining 0 0 start [.call 0 0, .insert 0 11 1, .finishCall 0 0 true] last ∧
        ((calls 0 [.call 0 0, .insert 0 11 1, .finishCall 0 0 true] :
            List Nat).count 0 = 1 ∧ last.state.Registered 0 0 10) ∧
        last.state.Registered 0 1 11 := by
  have reached : ∃ start, Run step (fun _ _ => True) (new : SubscriberSet Nat Nat)
      [.insert 0 10 0, .activate 0] start ∧ start.passes = [] ∧
        ∃ last, Retaining 0 0 start [.call 0 0, .insert 0 11 1, .finishCall 0 0 true] last := by
    apply Exists.intro
    apply And.intro (Run.cons trivial rfl (Run.cons trivial rfl .nil))
    constructor
    · rfl
    · apply Exists.intro
      constructor
      exact ⟨_, _, rfl, Run.cons trivial rfl (Run.cons trivial rfl (Run.cons trivial rfl .nil)), rfl⟩
  rcases reached with ⟨start, run, outermost, last, retaining⟩
  have lives {callback id : Nat}
      (inserted : .insert 0 callback id ∈ [SubscriberEvent.insert 0 10 0, .activate 0,
        .beginRetain 0 0, .call 0 0, .insert 0 11 1, .finishCall 0 0 true]) :
      Lives 0 callback id [.insert 0 10 0, .activate 0, .beginRetain 0 0, .call 0 0,
        .insert 0 11 1, .finishCall 0 0 true] := by
    refine ⟨inserted, by simp, by simp, fun removed => ?_⟩
    exact absurd removed.mem.2 (by decide)
  rcases (retain_loses_none run 0).2 _ _ _ retaining with ⟨kept, inserted, -, -⟩
  refine ⟨start, last, retaining, ?_, ?_⟩
  · exact kept (by simp [outermost]) 10 0 (by decide) (by decide) (lives (by decide))
  · exact (inserted 0 11 1 (by decide)).2 (lives (by decide))

end SubscriberSet

end Gpui
