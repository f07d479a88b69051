import Gpui.Library.Transition
import Gpui.Platform.DisplayLink

/-!
# Delivered ticks

While the version is even the atomics hold what the last call of the callback stored.  So a
snapshot that finds the version even and unchanged is the one of a single call, and its
callback count is the number of calls up to that one: what is delivered for it accounts for
exactly the calls since the last delivery.

All this is as long as the version does not come round: it takes 2 ^ 63 calls for that.
-/

namespace Gpui

open Library

/-- A call of the callback takes an id, and so does that of another link. -/
def DisplayLinkEvent.isTick : DisplayLinkEvent → Bool
  | .call _ | .otherLink => true
  | _ => false

namespace LinkCallback

/-- The calls that have begun and are not over. -/
def begun : LinkCallback → Nat
  | .idle => 0
  | _ => 1

/-- The ids that calls have yet to take. -/
def untaken : LinkCallback → Nat
  | .storing _ _ => 1
  | _ => 0

end LinkCallback

namespace DisplayLink

def ticks (events : List DisplayLinkEvent) : Nat :=
  events.countP DisplayLinkEvent.isTick

theorem ticks_append (events : List DisplayLinkEvent) (event : DisplayLinkEvent) :
    ticks (events ++ [event]) = ticks events + if event.isTick then 1 else 0 := by
  rw [ticks, List.countP_append, List.countP_singleton]
  rfl

/-! ## What the callback keeps -/

/-- Between two calls the atomics hold what the last one stored. -/
structure Published (state : DisplayLinkCallbackState) (calls : List (LinkTimes × UInt64)) :
    Prop where
  version : state.snapshotVersion.toNat = 2 * calls.length
  count : state.callbackCount.toNat = calls.length
  latest : ∀ {call}, calls.getLast? = some call →
    state.latest = call.1.stored ∧ state.latestTickSequenceId = call.2

/-- A call has stored all but some atomics, and has counted itself or not. -/
structure Storing (state : DisplayLinkCallbackState) (calls : List (LinkTimes × UInt64))
    (times : LinkTimes) (left : List TickAtomic) (counted : Nat) : Prop where
  version : state.snapshotVersion.toNat = 2 * calls.length + 1
  count : state.callbackCount.toNat = calls.length + counted
  latest : ∀ {atomic}, atomic ∉ left → state.latest atomic = times.stored atomic

/-- An id that was taken after those of the calls that are over. -/
def Fresh (calls : List (LinkTimes × UInt64)) (next sequence : UInt64) : Prop :=
  (∀ call ∈ calls, call.2 < sequence) ∧ sequence ≤ next

def CallbackOk (state : DisplayLinkCallbackState) (calls : List (LinkTimes × UInt64))
    (next : UInt64) : LinkCallback → Prop
  | .idle => Published state calls
  | .storing times left => Storing state calls times left 0
  | .storingSequence times sequence => Storing state calls times [] 0 ∧ Fresh calls next sequence
  | .counting times sequence =>
      Storing state calls times [] 0 ∧ Fresh calls next sequence ∧
        state.latestTickSequenceId = sequence
  | .publishing times sequence =>
      Storing state calls times [] 1 ∧ Fresh calls next sequence ∧
        state.latestTickSequenceId = sequence

/-! ## What the reader keeps -/

/-- A version that a reader has loaded. -/
def Seen (state : DisplayLinkCallbackState) (before : UInt64) : Prop :=
  before.toNat % 2 = 0 ∧ before.toNat ≤ state.snapshotVersion.toNat

/-- As long as the version is the one it has loaded, a reader has read what is there. -/
def ReaderOk (state : DisplayLinkCallbackState) : LinkReader → Prop
  | .idle => True
  | .reading before left read =>
      Seen state before ∧ (state.snapshotVersion = before →
        ∀ atomic, atomic ∉ left → read atomic = state.latest atomic)
  | .counting before read sequence =>
      Seen state before ∧ (state.snapshotVersion = before →
        read = state.latest ∧ sequence = state.latestTickSequenceId)
  | .checking before snapshot =>
      Seen state before ∧ (state.snapshotVersion = before →
        snapshot = .ofRead state.latest state.latestTickSequenceId state.callbackCount)

/-! ## What has been delivered -/

/-- A tick is made from what one call of the callback published. -/
def ProducedBy (clock : TickClock) (displayId : UInt32) (calls : List (LinkTimes × UInt64))
    (tick : FrameTraceDisplayTick) (index : Nat) : Prop :=
  ∃ call last now, calls[index]? = some call ∧
    frameTraceDelivery clock displayId (.ofTimes call.1 call.2 (.ofNat (index + 1))) last now =
      some tick

/-- Each tick accounts for the calls after the one before it, up to the one it is made from. -/
inductive Accounted (clock : TickClock) (displayId : UInt32) (calls : List (LinkTimes × UInt64)) :
    List FrameTraceDisplayTick → Nat → Prop
  | nil : Accounted clock displayId calls [] 0
  | snoc {ticks : List FrameTraceDisplayTick} {upTo index : Nat} {tick : FrameTraceDisplayTick}
      (before : Accounted clock displayId calls ticks upTo) (later : upTo ≤ index)
      (produced : ProducedBy clock displayId calls tick index)
      (coalesced : upTo + tick.coalescedCount.toNat = index + 1) :
      Accounted clock displayId calls (ticks ++ [tick]) (index + 1)

structure Coherent (clock : TickClock) (displayId : UInt32) (events : List DisplayLinkEvent)
    (link : DisplayLink) : Prop where
  display : link.callbackState.displayId = displayId
  callback : CallbackOk link.callbackState link.calls link.nextDisplayTickSequenceId link.callback
  reader : ReaderOk link.callbackState link.reader
  begun : link.calls.length + link.callback.begun ≤ ticks events
  taken : link.nextDisplayTickSequenceId.toNat + link.callback.untaken ≤ ticks events
  ascending : link.calls.Pairwise fun earlier later => earlier.2 < later.2
  known : ∀ call ∈ link.calls, call.2 ≤ link.nextDisplayTickSequenceId
  accounted : Accounted clock displayId link.calls link.delivered
    link.lastDeliveredCallbackCount.toNat

variable {clock : TickClock} {displayId : UInt32} {events : List DisplayLinkEvent}
  {link next : DisplayLink}

theorem coherent_new : Coherent clock displayId [] (new displayId) where
  display := rfl
  callback := ⟨rfl, rfl, fun none => by cases none⟩
  reader := trivial
  begun := le_rfl
  taken := le_rfl
  ascending := .nil
  known _ member := by cases member
  accounted := .nil

/-! ## Steps of the callback -/

/-- A reader that has to start over need not have read anything. -/
theorem ReaderOk.of_moved {state after : DisplayLinkCallbackState} {reader : LinkReader}
    (ok : ReaderOk state reader)
    (later : state.snapshotVersion.toNat ≤ after.snapshotVersion.toNat)
    (moved : ∀ before, Seen state before → after.snapshotVersion ≠ before) :
    ReaderOk after reader := by
  cases reader with
  | idle => trivial
  | reading before left read =>
      exact ⟨⟨ok.1.1, ok.1.2.trans later⟩, fun same => absurd same (moved before ok.1)⟩
  | counting before read sequence =>
      exact ⟨⟨ok.1.1, ok.1.2.trans later⟩, fun same => absurd same (moved before ok.1)⟩
  | checking before snapshot =>
      exact ⟨⟨ok.1.1, ok.1.2.trans later⟩, fun same => absurd same (moved before ok.1)⟩

/-- While the version is odd, no reader has loaded it. -/
theorem ReaderOk.of_odd {state after : DisplayLinkCallbackState} {reader : LinkReader}
    (ok : ReaderOk state reader) (same : after.snapshotVersion = state.snapshotVersion)
    (odd : state.snapshotVersion.toNat % 2 = 1) : ReaderOk after reader := by
  apply ok.of_moved (by rw [same])
  intro before seen equal
  rw [same] at equal
  rw [equal, seen.1] at odd
  cases odd

theorem Storing.odd {state : DisplayLinkCallbackState} {calls : List (LinkTimes × UInt64)}
    {times : LinkTimes} {left : List TickAtomic} {counted : Nat}
    (storing : Storing state calls times left counted) :
    state.snapshotVersion.toNat % 2 = 1 := by
  rw [storing.version]
  omega

theorem Coherent.call {times : LinkTimes} (coherent : Coherent clock displayId events link)
    (bound : ticks (events ++ [.call times]) < 2 ^ 63) (steps : link.call times = some next) :
    Coherent clock displayId (events ++ [.call times]) next := by
  have more : ticks (events ++ [.call times]) = ticks events + 1 := ticks_append _ _
  cases at_ : link.callback with
  | idle =>
      unfold DisplayLink.call at steps
      rw [at_] at steps
      cases steps
      have published : Published link.callbackState link.calls := by
        have ok := coherent.callback
        rwa [at_] at ok
      have begun := coherent.begun
      have taken := coherent.taken
      rw [at_] at begun taken
      have version : (link.callbackState.snapshotVersion + 1).toNat =
          2 * link.calls.length + 1 := by
        rw [toNat_add_one (by rw [published.version]; omega), published.version]
      exact {
        display := coherent.display
        callback := ⟨version, published.count, fun notLeft => absurd (TickAtomic.mem_all _) notLeft⟩
        reader := by
          apply coherent.reader.of_moved
          · show _ ≤ (link.callbackState.snapshotVersion + 1).toNat
            rw [version, published.version]
            omega
          · rintro before seen rfl
            have even : (link.callbackState.snapshotVersion + 1).toNat % 2 = 0 := seen.1
            rw [version] at even
            omega
        begun := by
          rw [more]
          exact Nat.add_le_add_right begun 1
        taken := by
          rw [more]
          exact Nat.add_le_add_right taken 1
        ascending := coherent.ascending
        known := coherent.known
        accounted := coherent.accounted }
  | _ =>
      unfold DisplayLink.call at steps
      rw [at_] at steps
      cases steps

/-- A call stores one more thing. -/
theorem Coherent.stores (coherent : Coherent clock displayId events link)
    {state : DisplayLinkCallbackState} {callback : LinkCallback}
    (display : state.displayId = link.callbackState.displayId)
    (version : state.snapshotVersion = link.callbackState.snapshotVersion)
    (odd : link.callbackState.snapshotVersion.toNat % 2 = 1)
    (ok : CallbackOk state link.calls link.nextDisplayTickSequenceId callback)
    (begun : callback.begun = link.callback.begun)
    (untaken : callback.untaken = link.callback.untaken) :
    Coherent clock displayId (events ++ [.store])
      { link with callbackState := state, callback } where
  display := display.trans coherent.display
  callback := ok
  reader := coherent.reader.of_odd version odd
  begun := by
    rw [ticks_append]
    exact begun ▸ coherent.begun
  taken := by
    rw [ticks_append]
    exact untaken ▸ coherent.taken
  ascending := coherent.ascending
  known := coherent.known
  accounted := coherent.accounted

/-- The call takes its id. -/
theorem Coherent.takesSequence {times : LinkTimes} (coherent : Coherent clock displayId events link)
    (bound : ticks events < 2 ^ 63) (at_ : link.callback = .storing times [])
    (storing : Storing link.callbackState link.calls times [] 0) :
    Coherent clock displayId (events ++ [.store])
      { link with
        nextDisplayTickSequenceId := link.nextDisplayTickSequenceId + 1
        callback := .storingSequence times (link.nextDisplayTickSequenceId + 1) } := by
  have begun := coherent.begun
  have taken := coherent.taken
  rw [at_] at begun taken
  have takes : link.nextDisplayTickSequenceId.toNat + 1 ≤ ticks events := taken
  have sequence : (link.nextDisplayTickSequenceId + 1).toNat =
      link.nextDisplayTickSequenceId.toNat + 1 :=
    toNat_add_one (by omega)
  have after : link.nextDisplayTickSequenceId < link.nextDisplayTickSequenceId + 1 := by
    rw [UInt64.lt_iff_toNat_lt, sequence]
    exact Nat.lt_succ_self _
  have known : ∀ call ∈ link.calls, call.2 < link.nextDisplayTickSequenceId + 1 :=
    fun call member => UInt64.lt_of_le_of_lt (coherent.known call member) after
  exact {
    display := coherent.display
    callback := ⟨storing, known, UInt64.le_refl _⟩
    reader := coherent.reader
    begun := by
      rw [ticks_append]
      exact begun
    taken := by
      rw [ticks_append]
      exact sequence ▸ takes
    ascending := coherent.ascending
    known := fun call member => UInt64.le_of_lt (known call member)
    accounted := coherent.accounted }

theorem ProducedBy.append {calls : List (LinkTimes × UInt64)} {tick : FrameTraceDisplayTick}
    {index : Nat} (produced : ProducedBy clock displayId calls tick index)
    (more : List (LinkTimes × UInt64)) :
    ProducedBy clock displayId (calls ++ more) tick index := by
  rcases produced with ⟨call, last, now, found, delivers⟩
  refine ⟨call, last, now, ?_, delivers⟩
  rw [List.getElem?_append_left (List.getElem?_eq_some_iff.mp found).1]
  exact found

theorem Accounted.append {calls : List (LinkTimes × UInt64)}
    {delivered : List FrameTraceDisplayTick} {upTo : Nat}
    (accounted : Accounted clock displayId calls delivered upTo)
    (more : List (LinkTimes × UInt64)) :
    Accounted clock displayId (calls ++ more) delivered upTo := by
  induction accounted with
  | nil => exact .nil
  | snoc before later produced coalesced ih => exact ih.snoc later (produced.append more) coalesced

/-- The call is over. -/
theorem Coherent.publishes {times : LinkTimes} {sequence : UInt64}
    (coherent : Coherent clock displayId events link) (bound : ticks events < 2 ^ 63)
    (at_ : link.callback = .publishing times sequence)
    (storing : Storing link.callbackState link.calls times [] 1)
    (fresh : Fresh link.calls link.nextDisplayTickSequenceId sequence)
    (stored : link.callbackState.latestTickSequenceId = sequence) :
    Coherent clock displayId (events ++ [.store])
      { link with
        callbackState := { link.callbackState with
          snapshotVersion := link.callbackState.snapshotVersion + 1 }
        callback := .idle
        calls := link.calls ++ [(times, sequence)] } := by
  have begun := coherent.begun
  have taken := coherent.taken
  rw [at_] at begun taken
  have fewer : link.calls.length + 1 ≤ ticks events := begun
  have length : (link.calls ++ [(times, sequence)]).length = link.calls.length + 1 :=
    List.length_append
  have version : (link.callbackState.snapshotVersion + 1).toNat =
      2 * link.calls.length + 2 := by
    rw [toNat_add_one (by rw [storing.version]; omega), storing.version]
  exact {
    display := coherent.display
    callback := by
      refine ⟨?_, ?_, ?_⟩
      · rw [length]
        exact version
      · rw [length]
        exact storing.count
      · intro call last
        rw [List.getLast?_concat] at last
        rcases Option.some.inj last with ⟨⟩
        exact ⟨funext fun _ => storing.latest List.not_mem_nil, stored⟩
    reader := by
      apply coherent.reader.of_moved
      · show _ ≤ (link.callbackState.snapshotVersion + 1).toNat
        rw [version, storing.version]
        omega
      · rintro before seen rfl
        have bounded : (link.callbackState.snapshotVersion + 1).toNat ≤
            link.callbackState.snapshotVersion.toNat := seen.2
        rw [version, storing.version] at bounded
        omega
    begun := by
      rw [ticks_append, length]
      exact fewer
    taken := by
      rw [ticks_append]
      exact taken
    ascending := by
      rw [List.pairwise_append]
      refine ⟨coherent.ascending, List.pairwise_singleton _ _, ?_⟩
      intro earlier member later new
      rw [List.mem_singleton.mp new]
      exact fresh.1 earlier member
    known := by
      intro call member
      rcases List.mem_append.mp member with old | new
      · exact coherent.known call old
      · rw [List.mem_singleton.mp new]
        exact fresh.2
    accounted := coherent.accounted.append _ }

theorem Coherent.store (coherent : Coherent clock displayId events link)
    (bound : ticks (events ++ [.store]) < 2 ^ 63) (steps : link.store = some next) :
    Coherent clock displayId (events ++ [.store]) next := by
  have same : ticks (events ++ [.store]) = ticks events := ticks_append _ _
  have ok := coherent.callback
  unfold DisplayLink.store at steps
  rw [same] at bound
  cases at_ : link.callback with
  | idle =>
      rw [at_] at steps
      cases steps
  | storing times left =>
      rw [at_] at steps ok
      cases left with
      | cons atomic left =>
          cases steps
          have stored : ∀ {other}, other ∉ left →
              Function.update link.callbackState.latest atomic (times.stored atomic) other =
                times.stored other := by
            intro other notLeft
            by_cases here : other = atomic
            · subst here
              rw [Function.update_self]
            · rw [Function.update_of_ne here]
              apply ok.latest
              rw [List.mem_cons, not_or]
              exact ⟨here, notLeft⟩
          apply coherent.stores
          · rfl
          · rfl
          · exact ok.odd
          · exact ⟨ok.version, ok.count, stored⟩
          · rw [at_]
            rfl
          · rw [at_]
            rfl
      | nil =>
          cases steps
          exact coherent.takesSequence bound at_ ok
  | storingSequence times sequence =>
      rw [at_] at steps ok
      cases steps
      apply coherent.stores
      · rfl
      · rfl
      · exact ok.1.odd
      · exact ⟨⟨ok.1.version, ok.1.count, ok.1.latest⟩, ok.2, rfl⟩
      · rw [at_]
        rfl
      · rw [at_]
        rfl
  | counting times sequence =>
      rw [at_] at steps ok
      cases steps
      have begun := coherent.begun
      rw [at_] at begun
      have fewer : link.calls.length + 1 ≤ ticks events := begun
      have count : link.callbackState.callbackCount.toNat = link.calls.length := ok.1.count
      have counted : (link.callbackState.callbackCount + 1).toNat = link.calls.length + 1 := by
        rw [toNat_add_one (by omega), count]
      apply coherent.stores
      · rfl
      · rfl
      · exact ok.1.odd
      · exact ⟨⟨ok.1.version, counted, ok.1.latest⟩, ok.2⟩
      · rw [at_]
        rfl
      · rw [at_]
        rfl
  | publishing times sequence =>
      rw [at_] at steps ok
      cases steps
      exact coherent.publishes bound at_ ok.1 ok.2.1 ok.2.2

/-! ## Steps of the reader -/

/-- The reader goes on, and delivers nothing. -/
theorem Coherent.reads {event : DisplayLinkEvent} {reader : LinkReader}
    (coherent : Coherent clock displayId events link) (noTick : event.isTick = false)
    (ok : ReaderOk link.callbackState reader) :
    Coherent clock displayId (events ++ [event]) { link with reader } where
  display := coherent.display
  callback := coherent.callback
  reader := ok
  begun := by
    rw [ticks_append, noTick]
    exact coherent.begun
  taken := by
    rw [ticks_append, noTick]
    exact coherent.taken
  ascending := coherent.ascending
  known := coherent.known
  accounted := coherent.accounted

theorem Coherent.take (coherent : Coherent clock displayId events link)
    (steps : link.take = some next) : Coherent clock displayId (events ++ [.take]) next := by
  unfold DisplayLink.take at steps
  cases at_ : link.reader with
  | idle =>
      rw [at_] at steps
      by_cases odd : link.callbackState.snapshotVersion &&& 1 ≠ 0
      · simp only [if_pos odd] at steps
        cases steps
        exact coherent.reads rfl coherent.reader
      · simp only [if_neg odd] at steps
        cases steps
        have seen : Seen link.callbackState link.callbackState.snapshotVersion := by
          have notOdd := mt odd_iff.mpr odd
          exact ⟨by omega, le_rfl⟩
        apply coherent.reads rfl
        exact ⟨seen, fun _ atomic notLeft => absurd (TickAtomic.mem_all atomic) notLeft⟩
  | _ =>
      rw [at_] at steps
      cases steps

theorem Accounted.le {calls : List (LinkTimes × UInt64)} {delivered : List FrameTraceDisplayTick}
    {upTo : Nat} (accounted : Accounted clock displayId calls delivered upTo) :
    upTo ≤ calls.length := by
  cases accounted with
  | nil => exact Nat.zero_le _
  | snoc _ _ produced _ =>
      rcases produced with ⟨_, _, _, found, _⟩
      exact (List.getElem?_eq_some_iff.mp found).1

theorem CallbackOk.of_even {state : DisplayLinkCallbackState} {calls : List (LinkTimes × UInt64)}
    {sequence : UInt64} {callback : LinkCallback} (ok : CallbackOk state calls sequence callback)
    (even : state.snapshotVersion.toNat % 2 = 0) : Published state calls := by
  have notStoring : ∀ {times left counted}, ¬ Storing state calls times left counted := by
    intro times left counted storing
    rw [storing.odd] at even
    cases even
  cases callback with
  | idle => exact ok
  | storing times left => exact absurd ok notStoring
  | storingSequence times sequence => exact absurd ok.1 notStoring
  | counting times sequence => exact absurd ok.1 notStoring
  | publishing times sequence => exact absurd ok.1 notStoring

theorem frameTraceDelivery_spec {snapshot : DisplayLinkTraceSnapshot} {last now : UInt64}
    {tick : FrameTraceDisplayTick}
    (delivers : frameTraceDelivery clock displayId snapshot last now = some tick) :
    snapshot.callbackCount ≠ last ∧ tick.sequence = snapshot.sequence ∧
      tick.coalescedCount = saturatingSub snapshot.callbackCount last ∧
      tick.workerCallbackTimeNs = clock.machTicksToNs snapshot.callbackHostTime := by
  rcases Option.ite_none_left_eq_some.mp delivers with ⟨differs, same⟩
  rcases Option.some.inj same with ⟨⟩
  exact ⟨differs, rfl, rfl, rfl⟩

/-- A snapshot that found the version even and unchanged is the one of the last call. -/
theorem Coherent.accounts {tick : FrameTraceDisplayTick} {now : UInt64}
    (coherent : Coherent clock displayId events link)
    (even : link.callbackState.snapshotVersion.toNat % 2 = 0)
    (delivers : frameTraceDelivery clock displayId (.ofRead link.callbackState.latest
      link.callbackState.latestTickSequenceId link.callbackState.callbackCount)
      link.lastDeliveredCallbackCount now = some tick) :
    Accounted clock displayId link.calls (link.delivered ++ [tick])
      link.callbackState.callbackCount.toNat := by
  have published := coherent.callback.of_even even
  rcases frameTraceDelivery_spec delivers with ⟨differs, _, coalesced, _⟩
  have upTo := coherent.accounted.le
  have notAll : link.lastDeliveredCallbackCount.toNat ≠ link.calls.length := by
    rw [← published.count]
    exact fun same => differs (UInt64.toNat_inj.mp same.symm)
  cases last : link.calls.getLast? with
  | none =>
      rw [List.getLast?_eq_none_iff.mp last] at upTo notAll
      exact absurd (Nat.le_zero.mp upTo) notAll
  | some call =>
      rcases published.latest last with ⟨latest, sequence⟩
      rw [List.getLast?_eq_getElem?] at last
      have count : link.callbackState.callbackCount.toNat = link.calls.length - 1 + 1 := by
        rw [published.count]
        omega
      have produced : ProducedBy clock displayId link.calls tick (link.calls.length - 1) := by
        refine ⟨call, link.lastDeliveredCallbackCount, now, last, ?_⟩
        rw [← count, UInt64.ofNat_toNat, ← DisplayLinkTraceSnapshot.ofRead_stored, ← latest,
          ← sequence]
        exact delivers
      rw [count]
      apply coherent.accounted.snoc (by omega) produced
      have fewer : link.lastDeliveredCallbackCount.toNat ≤
          link.callbackState.callbackCount.toNat := by
        omega
      have sub := toNat_saturatingSub fewer
      rw [coalesced]
      show _ + (saturatingSub link.callbackState.callbackCount _).toNat = _
      omega

theorem Coherent.load {now : UInt64} (coherent : Coherent clock displayId events link)
    (steps : link.load clock now = some next) :
    Coherent clock displayId (events ++ [.load now]) next := by
  have ok := coherent.reader
  unfold DisplayLink.load at steps
  cases at_ : link.reader with
  | idle =>
      rw [at_] at steps
      cases steps
  | reading before left read =>
      rw [at_] at steps ok
      cases left with
      | cons atomic left =>
          cases steps
          apply coherent.reads rfl
          refine ⟨ok.1, ?_⟩
          intro same other notLeft
          show Function.update _ _ _ _ = _
          by_cases here : other = atomic
          · subst here
            rw [Function.update_self]
          · rw [Function.update_of_ne here]
            apply ok.2 same
            rw [List.mem_cons, not_or]
            exact ⟨here, notLeft⟩
      | nil =>
          cases steps
          apply coherent.reads rfl
          exact ⟨ok.1, fun same => ⟨funext fun atomic => ok.2 same atomic List.not_mem_nil, rfl⟩⟩
  | counting before read sequence =>
      rw [at_] at steps ok
      cases steps
      apply coherent.reads rfl
      refine ⟨ok.1, ?_⟩
      intro same
      rw [(ok.2 same).1, (ok.2 same).2]
  | checking before snapshot =>
      rw [at_] at steps ok
      by_cases moved : before ≠ link.callbackState.snapshotVersion
      · simp only [if_pos moved] at steps
        cases steps
        exact coherent.reads rfl trivial
      · simp only [if_neg moved] at steps
        have same := (not_ne_iff.mp moved).symm
        have even : link.callbackState.snapshotVersion.toNat % 2 = 0 := by
          rw [same]
          exact ok.1.1
        cases ok.2 same
        rw [coherent.display] at steps
        cases delivers : frameTraceDelivery clock displayId (.ofRead link.callbackState.latest
            link.callbackState.latestTickSequenceId link.callbackState.callbackCount)
            link.lastDeliveredCallbackCount now with
        | none =>
            rw [delivers] at steps
            cases steps
            exact coherent.reads rfl trivial
        | some tick =>
            rw [delivers] at steps
            cases steps
            have accounted := coherent.accounts even delivers
            have idle : Coherent clock displayId (events ++ [.load now]) { link with
                reader := .idle } :=
              coherent.reads rfl trivial
            exact { idle with accounted }

theorem CallbackOk.mono {state : DisplayLinkCallbackState} {calls : List (LinkTimes × UInt64)}
    {sequence later : UInt64} {callback : LinkCallback}
    (ok : CallbackOk state calls sequence callback) (le : sequence ≤ later) :
    CallbackOk state calls later callback := by
  cases callback with
  | idle => exact ok
  | storing times left => exact ok
  | storingSequence times own => exact ⟨ok.1, ok.2.1, UInt64.le_trans ok.2.2 le⟩
  | counting times own => exact ⟨ok.1, ⟨ok.2.1.1, UInt64.le_trans ok.2.1.2 le⟩, ok.2.2⟩
  | publishing times own => exact ⟨ok.1, ⟨ok.2.1.1, UInt64.le_trans ok.2.1.2 le⟩, ok.2.2⟩

theorem Coherent.otherLink (coherent : Coherent clock displayId events link)
    (bound : ticks (events ++ [.otherLink]) < 2 ^ 63) :
    Coherent clock displayId (events ++ [.otherLink])
      { link with nextDisplayTickSequenceId := link.nextDisplayTickSequenceId + 1 } := by
  have more : ticks (events ++ [.otherLink]) = ticks events + 1 := ticks_append _ _
  have taken := coherent.taken
  have sequence : (link.nextDisplayTickSequenceId + 1).toNat =
      link.nextDisplayTickSequenceId.toNat + 1 :=
    toNat_add_one (by omega)
  have after : link.nextDisplayTickSequenceId ≤ link.nextDisplayTickSequenceId + 1 := by
    rw [UInt64.le_iff_toNat_le, sequence]
    exact Nat.le_succ _
  exact {
    display := coherent.display
    callback := coherent.callback.mono after
    reader := coherent.reader
    begun := by
      rw [more]
      exact Nat.le_succ_of_le coherent.begun
    taken := by
      show (link.nextDisplayTickSequenceId + 1).toNat + link.callback.untaken ≤ _
      omega
    ascending := coherent.ascending
    known := fun call member => UInt64.le_trans (coherent.known call member) after
    accounted := coherent.accounted }

/-! ## Runs -/

theorem Coherent.step {event : DisplayLinkEvent} (coherent : Coherent clock displayId events link)
    (bound : ticks (events ++ [event]) < 2 ^ 63) (steps : link.step clock event = some next) :
    Coherent clock displayId (events ++ [event]) next := by
  cases event with
  | call times => exact coherent.call bound steps
  | store => exact coherent.store bound steps
  | take => exact coherent.take steps
  | load now => exact coherent.load steps
  | otherLink =>
      cases steps
      exact coherent.otherLink bound

theorem coherent_of_run
    (run : Run (DisplayLink.step clock) (fun _ _ => True) (new displayId) events link)
    (bound : ticks events < 2 ^ 63) : Coherent clock displayId events link := by
  apply run.invariant (fun events link => ticks events < 2 ^ 63 →
    Coherent clock displayId events link) (fun _ => coherent_new) _ bound
  intro events state event next coherent _ steps bound
  have fewer : ticks events ≤ ticks (events ++ [event]) := by
    rw [ticks_append]
    exact Nat.le_add_right _ _
  exact (coherent (fewer.trans_lt bound)).step bound steps

/-! ## Ticks and calls -/

theorem Coherent.sequence_lt (coherent : Coherent clock displayId events link)
    {first second : FrameTraceDisplayTick} {earlier later : Nat}
    (produced : ProducedBy clock displayId link.calls first earlier)
    (produced' : ProducedBy clock displayId link.calls second later) (before : earlier < later) :
    first.sequence < second.sequence := by
  rcases produced with ⟨call, last, now, found, delivers⟩
  rcases produced' with ⟨call', last', now', found', delivers'⟩
  rw [(frameTraceDelivery_spec delivers).2.1, (frameTraceDelivery_spec delivers').2.1]
  rcases List.getElem?_eq_some_iff.mp found with ⟨bound, rfl⟩
  rcases List.getElem?_eq_some_iff.mp found' with ⟨bound', rfl⟩
  exact List.pairwise_iff_getElem.mp coherent.ascending earlier later bound bound' before

theorem Coherent.producedBy_unique (coherent : Coherent clock displayId events link)
    {tick : FrameTraceDisplayTick} {index other : Nat}
    (produced : ProducedBy clock displayId link.calls tick index)
    (produced' : ProducedBy clock displayId link.calls tick other) : index = other := by
  rcases Nat.lt_trichotomy index other with before | same | after
  · exact absurd (coherent.sequence_lt produced produced' before) (UInt64.lt_irrefl _)
  · exact same
  · exact absurd (coherent.sequence_lt produced' produced after) (UInt64.lt_irrefl _)

/-- The calls that the ticks account for. -/
def coalesced (ticks : List FrameTraceDisplayTick) : Nat :=
  (ticks.map fun tick => tick.coalescedCount.toNat).sum

theorem coalesced_append (ticks : List FrameTraceDisplayTick) (tick : FrameTraceDisplayTick) :
    coalesced (ticks ++ [tick]) = coalesced ticks + tick.coalescedCount.toNat := by
  simp [coalesced]

theorem Accounted.coalesced {calls : List (LinkTimes × UInt64)}
    {delivered : List FrameTraceDisplayTick} {upTo : Nat}
    (accounted : Accounted clock displayId calls delivered upTo) :
    coalesced delivered = upTo := by
  induction accounted with
  | nil => rfl
  | snoc _ _ _ coalesced ih => rw [coalesced_append, ih, coalesced]

/-- Every delivered tick accounts for the calls up to the one it was made from. -/
theorem Accounted.of_split {calls : List (LinkTimes × UInt64)}
    {delivered : List FrameTraceDisplayTick} {upTo : Nat}
    (accounted : Accounted clock displayId calls delivered upTo)
    {earlier later : List FrameTraceDisplayTick} {tick : FrameTraceDisplayTick}
    (split : delivered = earlier ++ tick :: later) :
    ∃ index, ProducedBy clock displayId calls tick index ∧
      DisplayLink.coalesced (earlier ++ [tick]) = index + 1 ∧ index < upTo := by
  induction accounted generalizing later with
  | nil => simp at split
  | snoc before later' produced coalesced ih =>
      rcases snoc_eq_append_cons split with ⟨rfl, rfl, same⟩ | ⟨rest, _, inner⟩
      · subst same
        refine ⟨_, produced, ?_, Nat.lt_succ_self _⟩
        rw [coalesced_append, before.coalesced, coalesced]
      · rcases ih inner with ⟨index, produced', coalesced', below⟩
        exact ⟨index, produced', coalesced', Nat.lt_succ_of_lt (below.trans_le later')⟩

theorem Coherent.pairwise_sequence (coherent : Coherent clock displayId events link) :
    link.delivered.Pairwise fun earlier later => earlier.sequence < later.sequence := by
  have ascending : ∀ {delivered upTo}, Accounted clock displayId link.calls delivered upTo →
      delivered.Pairwise fun earlier later => earlier.sequence < later.sequence := by
    intro delivered upTo accounted
    induction accounted with
    | nil => exact .nil
    | snoc before later produced _ ih =>
        rw [List.pairwise_append]
        refine ⟨ih, List.pairwise_singleton _ _, ?_⟩
        intro tick member last new
        rw [List.mem_singleton.mp new]
        rcases List.append_of_mem member with ⟨front, back, split⟩
        rcases before.of_split split with ⟨index, produced', _, below⟩
        exact coherent.sequence_lt produced' produced (below.trans_le later)
  exact ascending coherent.accounted

/-- With fewer than 2 ^ 63 ticks of all links, each tick delivered is made from one call of the
callback, their ids ascend, and they account for all calls up to the one they are made from. -/
theorem run_delivers
    (run : Run (DisplayLink.step clock) (fun _ _ => True) (new displayId) events link)
    (bound : ticks events < 2 ^ 63) :
    (∀ tick ∈ link.delivered, ∃! index, ProducedBy clock displayId link.calls tick index) ∧
      link.delivered.Pairwise (fun earlier later => earlier.sequence < later.sequence) ∧
      ∀ earlier tick later index, link.delivered = earlier ++ tick :: later →
        ProducedBy clock displayId link.calls tick index →
          coalesced (earlier ++ [tick]) = index + 1 := by
  have coherent := coherent_of_run run bound
  refine ⟨?_, coherent.pairwise_sequence, ?_⟩
  · intro tick member
    rcases List.append_of_mem member with ⟨front, back, split⟩
    rcases coherent.accounted.of_split split with ⟨index, produced, _, _⟩
    exact ⟨index, produced, fun other produced' => coherent.producedBy_unique produced' produced⟩
  · intro earlier tick later index split produced
    rcases coherent.accounted.of_split split with ⟨other, produced', coalesced', _⟩
    rw [coherent.producedBy_unique produced produced']
    exact coalesced'

/-- A clock that counts nanoseconds. -/
def plainClock : TickClock where
  numer := 1
  denom := 1
  refreshPeriodNs _ _ _ := 0

/-- A call that is told no times. -/
def timesAt (callbackHostTime : UInt64) : LinkTimes :=
  ⟨none, none, callbackHostTime⟩

/-- One whole call of the callback. -/
def callEvents (times : LinkTimes) : List DisplayLinkEvent :=
  .call times :: List.replicate 13 .store

/-- One whole call of `take_trace_delivery` that finds the version even. -/
def takeEvents (now : UInt64) : List DisplayLinkEvent :=
  .take :: List.replicate 12 (.load now)

theorem run_delivers_coalesced :
    ∃ link : DisplayLink, link.delivered.map FrameTraceDisplayTick.coalescedCount = [2, 1] ∧
      (∀ tick ∈ link.delivered, ∃! index, ProducedBy plainClock 1 link.calls tick index) ∧
      link.delivered.Pairwise (fun earlier later => earlier.sequence < later.sequence) ∧
      ∀ earlier tick later index, link.delivered = earlier ++ tick :: later →
        ProducedBy plainClock 1 link.calls tick index →
          coalesced (earlier ++ [tick]) = index + 1 := by
  have runs : ∃ link, (callEvents (timesAt 5) ++ callEvents (timesAt 6) ++ takeEvents 7 ++
      callEvents (timesAt 8) ++ takeEvents 9).foldlM (DisplayLink.step plainClock) (new 1) =
        some link ∧ link.delivered.map FrameTraceDisplayTick.coalescedCount = [2, 1] :=
    ⟨_, rfl, rfl⟩
  rcases runs with ⟨link, run, counts⟩
  exact ⟨link, counts, run_delivers (.of_foldlM run) (by decide)⟩

/-! ## When the version comes round -/

/-- A link between two calls, after calls that took these ids. -/
def between (version sequence count : UInt64) (times : LinkTimes) (reader : LinkReader)
    (calls : List (LinkTimes × UInt64)) : DisplayLink where
  callbackState := ⟨1, version, times.stored, sequence, count⟩
  lastDeliveredCallbackCount := 0
  nextDisplayTickSequenceId := sequence
  callback := .idle
  reader := reader
  calls := calls
  delivered := []

theorem run_callEvents (version sequence count : UInt64) (old times : LinkTimes)
    (reader : LinkReader) (calls : List (LinkTimes × UInt64)) :
    Run (DisplayLink.step plainClock) (fun _ _ => True)
      (between version sequence count old reader calls) (callEvents times)
      (between (version + 1 + 1) (sequence + 1) (count + 1) times reader
        (calls ++ [(times, sequence + 1)])) := by
  apply Run.of_foldlM
  have stored : ∀ {latest : (atomic : TickAtomic) → atomic.Value},
      TickAtomic.all.foldl (fun latest atomic =>
        Function.update latest atomic (times.stored atomic)) latest = times.stored := by
    intro latest
    funext atomic
    cases atomic <;> rfl
  have folded := congrArg (fun latest => some (DisplayLink.mk ⟨1, version + 1 + 1, latest,
    sequence + 1, count + 1⟩ 0 (sequence + 1) .idle reader (calls ++ [(times, sequence + 1)]) []))
    (@stored old.stored)
  exact folded

/-- Any number of calls that are told the same. -/
theorem exists_run_calls (version sequence count : UInt64) (times : LinkTimes)
    (reader : LinkReader) (calls : List (LinkTimes × UInt64)) (number : Nat) :
    ∃ events more, Run (DisplayLink.step plainClock) (fun _ _ => True)
        (between version sequence count times reader calls) events
        (between (version + 2 * .ofNat number) (sequence + .ofNat number) (count + .ofNat number)
          times reader (calls ++ more)) ∧
      ∀ call ∈ more, call.1 = times := by
  induction number with
  | zero =>
      refine ⟨[], [], ?_, fun _ member => by cases member⟩
      simpa using Run.nil
  | succ number ih =>
      rcases ih with ⟨events, more, run, told⟩
      have one : UInt64.ofNat (number + 1) = .ofNat number + 1 := UInt64.ofNat_add number 1
      have whole := run.append (run_callEvents _ _ _ times times reader (calls ++ more))
      have version' : version + 2 * UInt64.ofNat number + 1 + 1 =
          version + 2 * .ofNat (number + 1) := by
        rw [one]
        grind
      have sequence' : sequence + UInt64.ofNat number + 1 = sequence + .ofNat (number + 1) := by
        rw [one, UInt64.add_assoc]
      have count' : count + UInt64.ofNat number + 1 = count + .ofNat (number + 1) := by
        rw [one, UInt64.add_assoc]
      rw [version', sequence', count', List.append_assoc] at whole
      refine ⟨_, _, whole, ?_⟩
      intro call member
      rcases List.mem_append.mp member with old | new
      · exact told call old
      · rw [List.mem_singleton.mp new]

/-- A reader that has loaded the version 2 and the time 5. -/
def asleep : LinkReader :=
  .reading 2 TickAtomic.all.tail
    (Function.update TickAtomic.initial .callbackHostTime (5 : UInt64))

/-- The reader goes on where the version is 2 again. -/
theorem exists_run_wakes (sequence : UInt64) {count : UInt64} (counted : count ≠ 0)
    (calls : List (LinkTimes × UInt64)) :
    ∃ link tick, Run (DisplayLink.step plainClock) (fun _ _ => True)
        (between 2 sequence count (timesAt 6) asleep calls) (List.replicate 11 (.load 0)) link ∧
      link.calls = calls ∧ link.delivered = [tick] ∧ tick.sequence = sequence ∧
      tick.workerCallbackTimeNs = 5 := by
  let read : (atomic : TickAtomic) → atomic.Value :=
    Function.update (timesAt 6).stored .callbackHostTime (5 : UInt64)
  let snapshot : DisplayLinkTraceSnapshot := .ofRead read sequence count
  have delivers : ∃ tick, frameTraceDelivery plainClock 1 snapshot 0 0 = some tick ∧
      tick.sequence = sequence ∧ tick.workerCallbackTimeNs = 5 :=
    ⟨_, if_neg counted, rfl, show plainClock.machTicksToNs 5 = 5 by decide⟩
  rcases delivers with ⟨tick, delivers, sequence', time⟩
  have loaded : (List.replicate 10 (.load 0)).foldlM (DisplayLink.step plainClock)
      (between 2 sequence count (timesAt 6) asleep calls) =
        some (between 2 sequence count (timesAt 6) (.checking 2 snapshot) calls) :=
    rfl
  have checked : DisplayLink.step plainClock
      (between 2 sequence count (timesAt 6) (.checking 2 snapshot) calls) (.load 0) =
        some { between 2 sequence count (timesAt 6) .idle calls with
          lastDeliveredCallbackCount := count
          delivered := [tick] } := by
    simp only [DisplayLink.step, DisplayLink.load, between, ne_eq, not_true_eq_false, if_false,
      delivers]
    rfl
  exact ⟨_, tick, (Run.of_foldlM loaded).snoc trivial checked, rfl, rfl, sequence', time⟩

/-- A reader that sleeps through 2 ^ 63 calls delivers the time of one call with the id of
another. -/
theorem not_run_delivers :
    ¬ ∀ (events : List DisplayLinkEvent) (link : DisplayLink),
      Run (DisplayLink.step plainClock) (fun _ _ => True) (new 1) events link →
        (∀ tick ∈ link.delivered, ∃! index, ProducedBy plainClock 1 link.calls tick index) ∧
          link.delivered.Pairwise (fun earlier later => earlier.sequence < later.sequence) ∧
          ∀ earlier tick later index, link.delivered = earlier ++ tick :: later →
            ProducedBy plainClock 1 link.calls tick index →
              coalesced (earlier ++ [tick]) = index + 1 := by
  intro delivers
  have initial : new 1 = between 0 0 0 (timesAt 0) .idle [] := by
    have latest : TickAtomic.initial = (timesAt 0).stored := by
      funext atomic
      cases atomic <;> rfl
    rw [new, latest]
    rfl
  have called := run_callEvents 0 0 0 (timesAt 0) (timesAt 5) .idle []
  have loaded : Run (DisplayLink.step plainClock) (fun _ _ => True)
      (between 2 1 1 (timesAt 5) .idle [(timesAt 5, 1)]) [.take, .load 0]
      (between 2 1 1 (timesAt 5) asleep [(timesAt 5, 1)]) :=
    .of_foldlM rfl
  have turned := run_callEvents 2 1 1 (timesAt 5) (timesAt 6) asleep [(timesAt 5, 1)]
  rcases exists_run_calls 4 2 2 (timesAt 6) asleep [(timesAt 5, 1), (timesAt 6, 2)] (2 ^ 63 - 1)
    with ⟨events, more, around, told⟩
  have version : (4 : UInt64) + 2 * .ofNat (2 ^ 63 - 1) = 2 := by decide
  rw [version] at around
  have counted : (2 : UInt64) + .ofNat (2 ^ 63 - 1) ≠ 0 := by decide
  rcases exists_run_wakes (2 + .ofNat (2 ^ 63 - 1)) counted
    ([(timesAt 5, 1), (timesAt 6, 2)] ++ more) with ⟨link, tick, woken, calls, delivered, id, time⟩
  have run := (((called.append loaded).append turned).append around).append woken
  rw [← initial] at run
  have member : tick ∈ link.delivered := by
    rw [delivered]
    exact List.mem_singleton_self tick
  rcases (delivers _ link run).1 tick member with ⟨index, ⟨call, last, now, found, made⟩, _⟩
  rcases frameTraceDelivery_spec made with ⟨_, id', _, time'⟩
  have among := List.mem_of_getElem? found
  rw [calls] at among
  rw [id] at id'
  rw [time] at time'
  have late : ∀ {call : LinkTimes × UInt64}, call.1 = timesAt 6 →
      (5 : UInt64) ≠ plainClock.machTicksToNs call.1.callbackHostTime := by
    intro call told
    rw [told]
    decide
  simp only [List.cons_append, List.nil_append, List.mem_cons] at among
  rcases among with rfl | rfl | member
  · have same : (2 : UInt64) + .ofNat (2 ^ 63 - 1) = 1 := id'
    exact absurd same (by decide)
  · exact late rfl time'
  · exact late (told call member) time'

end DisplayLink

end Gpui
