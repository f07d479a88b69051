import Gpui.Window.ElementState

/-!
# Element state persists while accessed

A ledger follows the window and notes what each key should hold.  No state is lost or
kept too long: the maps of the two frames hold together what the ledger holds, except for
the keys whose closure is running.
-/

namespace Gpui

open Gpui.Library

variable {Key : Type} {State : Key → Type} [DecidableEq Key]

/-- A step of the window, noted in the ledger. -/
def observe (observed : ElementStateWindow State × ElementStateLedger State)
    (event : ElementStateEvent State) :
    Option (ElementStateWindow State × ElementStateLedger State) :=
  (observed.1.step event).map fun window => (window, observed.2.step observed.1 event)

omit [DecidableEq Key] in
/-- No key is accessed in its own closure. -/
def NonReentrant (observed : ElementStateWindow State × ElementStateLedger State) :
    ElementStateEvent State → Prop
  | .beginAccess key => key ∉ observed.1.openKeys
  | _ => True

namespace ElementStateWindow

/-- Wherever the state of a key is, it is taken. -/
theorem takeState_eq (window : ElementStateWindow State) (key : Key) :
    (window.takeState key).1 =
        (window.nextFrame.elementStates key).or (window.renderedFrame.elementStates key) ∧
      (window.takeState key).2.nextFrame.elementStates =
        window.nextFrame.elementStates.remove key := by
  cases found : window.nextFrame.elementStates key with
  | some state => simp [takeState, found]
  | none =>
      simp only [takeState, found, Option.none_or, true_and]
      exact (Function.update_eq_self_iff.mpr found.symm).symm

theorem takeState_renderedFrame (window : ElementStateWindow State) {key : Key}
    (only : ∀ state, window.nextFrame.elementStates key = some state →
      window.renderedFrame.elementStates key = none) :
    (window.takeState key).2.renderedFrame.elementStates =
      window.renderedFrame.elementStates.remove key := by
  cases found : window.nextFrame.elementStates key with
  | some state =>
      simp only [takeState, found]
      exact (Function.update_eq_self_iff.mpr (only state found).symm).symm
  | none => simp only [takeState, found]

@[simp]
theorem takeState_callers (window : ElementStateWindow State) (key : Key) :
    (window.takeState key).2.callers = window.callers := by
  unfold takeState
  split
  · rfl
  · rfl

/-- The end of an access puts the state into the next frame. -/
theorem endAccess_eq {window next : ElementStateWindow State} {key : Key} {state : State key}
    (ends : window.endAccess key state = some next) :
    window.openKeys = key :: next.openKeys ∧
      next.nextFrame.elementStates = window.nextFrame.elementStates.insert key state ∧
      next.renderedFrame.elementStates = window.renderedFrame.elementStates := by
  unfold endAccess at ends
  split at ends
  next caller callers waiting =>
    rw [Option.ite_none_right_eq_some] at ends
    rcases ends with ⟨rfl, same⟩
    cases same
    refine ⟨?_, rfl, rfl⟩
    rw [openKeys, waiting]
    exact List.filterMap_cons_some rfl
  next => cases ends

omit [DecidableEq Key] in
/-- A transaction, failed or not, moves no state. -/
theorem endTransact_same {window next : ElementStateWindow State} {isErr : Bool}
    (ends : window.endTransact isErr = some next) :
    next.nextFrame.elementStates = window.nextFrame.elementStates ∧
      next.renderedFrame.elementStates = window.renderedFrame.elementStates ∧
      next.openKeys = window.openKeys := by
  unfold endTransact at ends
  split at ends
  next index callers waiting =>
    have openKeys : callers.filterMap ElementStateCaller.key = window.openKeys := by
      rw [ElementStateWindow.openKeys, waiting]
      exact (List.filterMap_cons_none rfl).symm
    split at ends
    · cases ends
      exact ⟨rfl, rfl, openKeys⟩
    · cases ends
      exact ⟨rfl, rfl, openKeys⟩
  next => cases ends

end ElementStateWindow

/-! ## The invariant -/

/-- The frames hold what the ledger says, and where it can be. -/
structure Accounted (window : ElementStateWindow State) (ledger : ElementStateLedger State) :
    Prop where
  nested : window.openKeys.Nodup
  used : ∀ key state, window.nextFrame.elementStates key = some state → key ∈ ledger.used
  moved : ∀ key ∈ ledger.used, window.renderedFrame.elementStates key = none
  taken : ∀ key ∈ window.openKeys,
    key ∈ ledger.used ∧ window.nextFrame.elementStates key = none
  held : ∀ key ∉ window.openKeys,
    (window.nextFrame.elementStates key).or (window.renderedFrame.elementStates key) =
      ledger.held key

namespace Accounted

variable {window next : ElementStateWindow State} {ledger : ElementStateLedger State}

omit [DecidableEq Key] in
theorem new : Accounted (.new : ElementStateWindow State) .new where
  nested := List.nodup_nil
  used key state found := by simp [ElementStateWindow.new, ElementStateFrame.empty] at found
  moved key member := by simp [ElementStateLedger.new] at member
  taken key running := by
    simp [ElementStateWindow.openKeys, ElementStateWindow.new] at running
  held key _ := rfl

omit [DecidableEq Key] in
/-- Nothing but the list of accessed keys and the waiting transactions changed. -/
theorem of_same (accounted : Accounted window ledger)
    (nextStates : next.nextFrame.elementStates = window.nextFrame.elementStates)
    (renderedStates : next.renderedFrame.elementStates = window.renderedFrame.elementStates)
    (openKeys : next.openKeys = window.openKeys) : Accounted next ledger where
  nested := openKeys ▸ accounted.nested
  used key state found := accounted.used key state (nextStates ▸ found)
  moved key member := by
    rw [renderedStates]
    exact accounted.moved key member
  taken key running := by
    rw [nextStates]
    exact accounted.taken key (openKeys ▸ running)
  held key closed := by
    rw [nextStates, renderedStates]
    exact accounted.held key (openKeys ▸ closed)

/-- An access receives what the ledger holds. -/
theorem beginAccess_fst (accounted : Accounted window ledger) {key : Key}
    (closed : key ∉ window.openKeys) : (window.beginAccess key).1 = ledger.held key := by
  rw [← accounted.held key closed]
  exact (ElementStateWindow.takeState_eq _ key).1

theorem beginAccess (accounted : Accounted window ledger) {key : Key}
    (closed : key ∉ window.openKeys) :
    Accounted (window.beginAccess key).2 (ledger.step window (.beginAccess key)) := by
  have nextStates : (window.beginAccess key).2.nextFrame.elementStates =
      window.nextFrame.elementStates.remove key :=
    (ElementStateWindow.takeState_eq (window.pushAccessed key) key).2
  have renderedStates : (window.beginAccess key).2.renderedFrame.elementStates =
      window.renderedFrame.elementStates.remove key :=
    ElementStateWindow.takeState_renderedFrame (window.pushAccessed key)
      fun state found => accounted.moved key (accounted.used key state found)
  have openKeys : (window.beginAccess key).2.openKeys = key :: window.openKeys := by
    simp [ElementStateWindow.openKeys, ElementStateWindow.beginAccess,
      ElementStateWindow.pushAccessed, ElementStateCaller.key]
  constructor
  case nested =>
    rw [openKeys]
    exact List.nodup_cons.mpr ⟨closed, accounted.nested⟩
  case used =>
    intro other state found
    rw [nextStates, PartialMap.remove_eq_some_iff] at found
    exact List.mem_cons_of_mem _ (accounted.used other state found.2)
  case moved =>
    intro other member
    rw [renderedStates]
    by_cases same : other = key
    · rw [same, PartialMap.remove_self]
    · rw [PartialMap.remove_of_ne _ same]
      exact accounted.moved other ((List.mem_cons.mp member).resolve_left same)
  case taken =>
    intro other running
    rw [nextStates]
    by_cases same : other = key
    · rw [same, PartialMap.remove_self]
      exact ⟨List.mem_cons_self, rfl⟩
    · rw [PartialMap.remove_of_ne _ same]
      rw [openKeys] at running
      rcases accounted.taken other ((List.mem_cons.mp running).resolve_left same) with
        ⟨member, absent⟩
      exact ⟨List.mem_cons_of_mem _ member, absent⟩
  case held =>
    intro other outside
    rw [openKeys, List.mem_cons, not_or] at outside
    rw [nextStates, renderedStates, PartialMap.remove_of_ne _ outside.1,
      PartialMap.remove_of_ne _ outside.1]
    exact accounted.held other outside.2

/-- The key is open until its access ends. -/
theorem endAccess_closes (accounted : Accounted window ledger) {key : Key} {state : State key}
    (ends : window.endAccess key state = some next) : key ∉ next.openKeys := by
  have distinct := accounted.nested
  rw [(ElementStateWindow.endAccess_eq ends).1] at distinct
  exact (List.nodup_cons.mp distinct).1

theorem endAccess (accounted : Accounted window ledger) {key : Key} {state : State key}
    (ends : window.endAccess key state = some next) :
    Accounted next (ledger.step window (.endAccess key state)) := by
  have closed := accounted.endAccess_closes ends
  rcases ElementStateWindow.endAccess_eq ends with ⟨openKeys, nextStates, renderedStates⟩
  have wasOpen : key ∈ window.openKeys := by simp [openKeys]
  constructor
  case nested =>
    have distinct := accounted.nested
    rw [openKeys] at distinct
    exact distinct.of_cons
  case used =>
    intro other found present
    by_cases same : other = key
    · exact same ▸ (accounted.taken key wasOpen).1
    · rw [nextStates, PartialMap.insert_of_ne _ _ same] at present
      exact accounted.used other found present
  case moved =>
    rw [renderedStates]
    exact accounted.moved
  case taken =>
    intro other running
    have differs : other ≠ key := fun same => closed (same ▸ running)
    rw [nextStates, PartialMap.insert_of_ne _ _ differs]
    exact accounted.taken other (openKeys ▸ List.mem_cons_of_mem _ running)
  case held =>
    intro other outside
    rw [nextStates, renderedStates]
    by_cases same : other = key
    · subst same
      simp [ElementStateLedger.step]
    · have before : other ∉ window.openKeys := by
        rw [openKeys, List.mem_cons, not_or]
        exact ⟨same, outside⟩
      simpa [ElementStateLedger.step, same] using accounted.held other before

omit [DecidableEq Key] in
theorem reuse (accounted : Accounted window ledger) {start stop : Nat}
    (reuses : window.reuse start stop = some next) : Accounted next ledger := by
  rw [ElementStateWindow.reuse, Option.ite_none_right_eq_some] at reuses
  cases reuses.2
  exact accounted.of_same rfl rfl rfl

omit [DecidableEq Key] in
theorem endTransact (accounted : Accounted window ledger) {isErr : Bool}
    (ends : window.endTransact isErr = some next) : Accounted next ledger := by
  rcases ElementStateWindow.endTransact_same ends with ⟨nextStates, renderedStates, openKeys⟩
  exact accounted.of_same nextStates renderedStates openKeys

/-- A finished frame holds what the ledger held for the keys it keeps. -/
theorem finish_elementStates (accounted : Accounted window ledger)
    (finishes : window.finish = some next) (key : Key) :
    next.renderedFrame.elementStates key =
      if ledger.Kept window key then ledger.held key else none := by
  rw [ElementStateWindow.finish, Option.ite_none_right_eq_some] at finishes
  rcases finishes with ⟨returned, same⟩
  cases same
  have closed : key ∉ window.openKeys := by
    simp [ElementStateWindow.openKeys, returned]
  rw [← accounted.held key closed]
  simp only [ElementStateFrame.finish, PartialMap.foldl_promote_snd,
    ElementStateLedger.Kept]
  cases present : window.nextFrame.elementStates key with
  | some state =>
      have used := accounted.used key state present
      simp [used, accounted.moved key used]
  | none =>
      by_cases used : key ∈ ledger.used
      · simp [used, accounted.moved key used]
      · simp [used]

theorem finish (accounted : Accounted window ledger)
    (finishes : window.finish = some next) :
    Accounted next (ledger.step window .finish) := by
  have states := accounted.finish_elementStates finishes
  rw [ElementStateWindow.finish, Option.ite_none_right_eq_some] at finishes
  rcases finishes with ⟨returned, same⟩
  cases same
  constructor
  case nested => simp [ElementStateWindow.openKeys, returned]
  case used =>
    intro key state found
    simp [ElementStateFrame.empty] at found
  case moved =>
    intro key member
    simp [ElementStateLedger.step] at member
  case taken =>
    intro key running
    simp [ElementStateWindow.openKeys, returned] at running
  case held =>
    intro key _
    simpa [ElementStateFrame.empty, ElementStateLedger.step] using states key

/-- Every step keeps the invariant. -/
theorem step (accounted : Accounted window ledger) {event : ElementStateEvent State}
    (may : NonReentrant (window, ledger) event) (steps : window.step event = some next) :
    Accounted next (ledger.step window event) := by
  cases event with
  | beginAccess key =>
      cases steps
      exact accounted.beginAccess may
  | endAccess key state => exact accounted.endAccess steps
  | reuse start stop => exact accounted.reuse steps
  | beginTransact =>
      cases steps
      exact accounted.of_same rfl rfl rfl
  | endTransact isErr => exact accounted.endTransact steps
  | finish => exact accounted.finish steps

/-- A step that begins no access of a key and ends no frame that drops it leaves what the
ledger holds for it. -/
theorem step_held {key : Key} (closed : key ∉ window.openKeys)
    {event : ElementStateEvent State} (other : event ≠ .beginAccess key)
    (kept : event = .finish → ledger.Kept window key)
    (steps : window.step event = some next) :
    (ledger.step window event).held key = ledger.held key ∧ key ∉ next.openKeys := by
  cases event with
  | beginAccess accessed =>
      cases steps
      have differs : key ≠ accessed := fun same => other (same ▸ rfl)
      refine ⟨rfl, ?_⟩
      simpa [ElementStateWindow.openKeys, ElementStateWindow.beginAccess,
        ElementStateWindow.pushAccessed, ElementStateCaller.key, differs] using closed
  | endAccess accessed state =>
      rw [(ElementStateWindow.endAccess_eq steps).1, List.mem_cons, not_or] at closed
      exact ⟨PartialMap.insert_of_ne _ _ closed.1, closed.2⟩
  | reuse start stop =>
      simp only [ElementStateWindow.step, ElementStateWindow.reuse,
        Option.ite_none_right_eq_some] at steps
      cases steps.2
      exact ⟨rfl, closed⟩
  | beginTransact =>
      cases steps
      exact ⟨rfl, closed⟩
  | endTransact isErr =>
      refine ⟨rfl, ?_⟩
      rw [(ElementStateWindow.endTransact_same steps).2.2]
      exact closed
  | finish =>
      simp only [ElementStateWindow.step, ElementStateWindow.finish,
        Option.ite_none_right_eq_some] at steps
      cases steps.2
      exact ⟨if_pos (kept rfl), closed⟩

end Accounted

/-! ## Runs -/

/-- What may happen between two accesses of a key: any steps but accesses of the key, and
frames that keep it. -/
def Undisturbed (key : Key) (observed : ElementStateWindow State × ElementStateLedger State)
    (event : ElementStateEvent State) : Prop :=
  NonReentrant observed event ∧ event ≠ .beginAccess key ∧
    (event = .finish → observed.2.Kept observed.1 key)

abbrev observedNew : ElementStateWindow State × ElementStateLedger State :=
  (.new, .new)

theorem Accounted.run {events : List (ElementStateEvent State)}
    {first last : ElementStateWindow State × ElementStateLedger State}
    (accounted : Accounted first.1 first.2)
    (run : Run observe NonReentrant first events last) : Accounted last.1 last.2 := by
  refine run.invariant (fun _ observed => Accounted observed.1 observed.2) accounted ?_
  intro _ observed event next accounted may steps
  rcases Option.map_eq_some_iff.mp steps with ⟨window, stepped, same⟩
  cases same
  exact accounted.step may stepped

/-- Between two accesses of a key nothing changes what the ledger holds for it. -/
theorem held_of_undisturbed {key : Key} {events : List (ElementStateEvent State)}
    {first last : ElementStateWindow State × ElementStateLedger State}
    (run : Run observe (Undisturbed key) first events last)
    (closed : key ∉ first.1.openKeys) :
    last.2.held key = first.2.held key ∧ key ∉ last.1.openKeys := by
  refine run.invariant
    (fun _ observed => observed.2.held key = first.2.held key ∧ key ∉ observed.1.openKeys)
    ⟨rfl, closed⟩ ?_
  intro _ observed event next same may steps
  rcases Option.map_eq_some_iff.mp steps with ⟨window, stepped, rfl⟩
  rcases Accounted.step_held same.2 may.2.1 may.2.2 stepped with ⟨held, outside⟩
  exact ⟨held.trans same.1, outside⟩

/-- After any frames, an access receives what the ledger holds; a finished frame holds
exactly the states of the keys it keeps; and the value an access returns is received by
the next access of its key as long as every frame finished between them keeps the key,
whether or not a transaction around the first one failed. -/
theorem elementStates_persist {events : List (ElementStateEvent State)}
    {window : ElementStateWindow State} {ledger : ElementStateLedger State}
    (run : Run observe NonReentrant observedNew events (window, ledger)) :
    (∀ key ∉ window.openKeys, (window.beginAccess key).1 = ledger.held key) ∧
    (∀ finished, window.finish = some finished → ∀ key,
      finished.renderedFrame.elementStates key =
        if ledger.Kept window key then ledger.held key else none) ∧
    ∀ key state next, window.endAccess key state = some next →
      ∀ later last, Run observe (Undisturbed key)
          (next, ledger.step window (.endAccess key state)) later last →
        (last.1.beginAccess key).1 = some state := by
  have accounted : Accounted window ledger := Accounted.new.run run
  refine ⟨fun key closed => accounted.beginAccess_fst closed,
    fun finished finishes => accounted.finish_elementStates finishes, ?_⟩
  intro key state next ends later last between
  have ended := (accounted.endAccess ends).run (between.mono fun _ _ may => may.1)
  rcases held_of_undisturbed between (accounted.endAccess_closes ends) with ⟨held, outside⟩
  rw [ended.beginAccess_fst outside, held]
  exact PartialMap.insert_self ..

/-- A state returned inside a transaction that fails, and received in the next frame. -/
theorem elementStates_persist_failed :
    ∃ last : ElementStateWindow fun _ : Nat => Nat,
      [.beginTransact, .beginAccess 7, .endAccess 7 5, .endTransact true,
          .finish].foldlM ElementStateWindow.step .new = some last ∧
        (last.beginAccess 7).1 = some 5 := by
  have run : Run (@observe Nat (fun _ => Nat) _) NonReentrant observedNew
      ([] ++ [.beginTransact] ++ [.beginAccess 7]) _ :=
    (Run.nil.snoc trivial rfl).snoc (by exact List.not_mem_nil) rfl
  have received := (elementStates_persist run).2.2 7 5 _ rfl
    ([] ++ [.endTransact true] ++ [.finish]) _
    ((Run.nil.snoc (by exact ⟨trivial, nofun, nofun⟩) rfl).snoc
      (by exact ⟨trivial, nofun, fun _ => Or.inr List.mem_cons_self⟩) rfl)
  exact ⟨_, rfl, received⟩

/-- A state accessed only inside a failed transaction is kept without being recorded. -/
theorem exists_state_unrecorded :
    ¬ ∀ (events : List (ElementStateEvent fun _ : Nat => Nat)) window ledger,
      Run observe NonReentrant observedNew events (window, ledger) →
      ∀ finished, window.finish = some finished → ∀ key,
        (finished.renderedFrame.elementStates key).isSome →
          key ∈ window.nextFrame.accessedElementStates := by
  intro recorded
  have run : Run (@observe Nat (fun _ => Nat) _) NonReentrant observedNew
      ([] ++ [.beginTransact] ++ [.beginAccess 7] ++ [.endAccess 7 5] ++ [.endTransact true])
      _ :=
    (((Run.nil.snoc trivial rfl).snoc (by exact List.not_mem_nil) rfl).snoc trivial
      rfl).snoc trivial rfl
  exact absurd (recorded _ _ _ run _ rfl 7 rfl) List.not_mem_nil

end Gpui
