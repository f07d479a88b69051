import Gpui.Executor.TestDispatcher
import Gpui.Library.Transition

/-!
# The clock of the test dispatcher

`advance_clock` runs everything until nothing is left to run, sets the clock to the next deadline,
and so on up to the time that it advances to.  Runnables are programs of which only what they do
with the dispatcher is known: they dispatch others, read the clock, and tick the dispatcher from
within.  They share a memory.

A run takes one step after the other, each with what is drawn for it.
-/

namespace Gpui

open Library

namespace TestDispatcher

/-- What a program does next with the dispatcher, and what it does after that. -/
inductive Action (L P : Type) where
  | done
  | dispatch (runnable : P) (label : Option L) (next : P)
  | dispatchOnMainThread (id : Nat) (runnable : P) (next : P)
  | dispatchAfter (duration : Nat) (runnable : P) (next : P)
  | deprioritize (label : L) (next : P)
  | tick (backgroundOnly : Bool) (next : Bool → P)
  | runUntilParked (next : P)
  /-- `now` and `is_main_thread`. -/
  | observe (next : Nat → Bool → P)
  /-- A number is drawn from the random generator. -/
  | draw (next : Nat → P)

/-- A program that is to run.  Until when it has been delayed is not kept by the dispatcher; it
is written down here for what is said about the runs. -/
structure Runnable (P : Type) where
  program : P
  due : Option Nat
deriving DecidableEq

/-- The functions that wait for another to return. -/
inductive Call where
  | run
  | tick
  | runUntilParked

/-- What happens when a call returns. -/
inductive Context (P : Type) : Call → Type where
  | ticked (wasMainThread : Bool) (caller : Context P .tick) : Context P .run
  | untilParked (caller : Context P .runUntilParked) : Context P .tick
  | afterTick (next : Bool → P) (caller : Context P .run) : Context P .tick
  | afterParked (next : P) (caller : Context P .run) : Context P .runUntilParked
  | advanceClock (newNow : Nat) : Context P .runUntilParked

/-- What is done in the next step. -/
inductive Control (P : Type) where
  | run (program : P) (context : Context P .run)
  | tick (backgroundOnly : Bool) (context : Context P .tick)
  | parked (context : Context P .runUntilParked)
  | finished

/-- `advance_clock` underway.  The runnables that have been started, with what the clock read, and
those that have been delayed are written down. -/
structure Machine (L P M : Type) where
  control : Control P
  state : TestDispatcherState L (Runnable P)
  memory : M
  started : List (Nat × Runnable P)
  delays : List (Runnable P)

variable {L P M : Type} [DecidableEq L]

/-- A tick returns whether it has run something. -/
def Control.ticked (result : Bool) : Context P .tick → Control P
  | .untilParked caller =>
      if result then .tick false (.untilParked caller) else .parked caller
  | .afterTick next caller => .run (next result) caller

/-- The step of a program that has come to an action. -/
def Machine.perform (machine : Machine L P M) (context : Context P .run) (choice : Choice) :
    Action L P → Option (Machine L P M)
  | .done =>
      match context with
      | .ticked wasMainThread caller =>
          some { machine with
            control := Control.ticked true caller
            state := { machine.state with isMainThread := wasMainThread } }
  | .dispatch runnable label next =>
      some { machine with
        control := .run next context
        state := machine.state.dispatch ⟨runnable, none⟩ label }
  | .dispatchOnMainThread id runnable next =>
      some { machine with
        control := .run next context
        state := machine.state.dispatchOnMainThread id ⟨runnable, none⟩ }
  | .dispatchAfter duration runnable next =>
      let delayed : Runnable P := ⟨runnable, some (machine.state.time + duration)⟩
      (machine.state.dispatchAfter duration delayed choice).map fun state =>
        { machine with
          control := .run next context
          state
          delays := machine.delays ++ [delayed] }
  | .deprioritize label next =>
      some { machine with
        control := .run next context
        state := machine.state.deprioritize label }
  | .tick backgroundOnly next =>
      some { machine with control := .tick backgroundOnly (.afterTick next context) }
  | .runUntilParked next =>
      some { machine with control := .tick false (.untilParked (.afterParked next context)) }
  | .observe next =>
      some { machine with
        control := .run (next machine.state.time machine.state.isMainThread) context }
  | .draw next => some { machine with control := .run (next choice.index) context }

/-- The step when nothing is left to run. -/
def Machine.park (machine : Machine L P M) : Context P .runUntilParked → Machine L P M
  | .afterParked next caller => { machine with control := .run next caller }
  | .advanceClock newNow =>
      let finished : Machine L P M :=
        { machine with
          control := .finished
          state := { machine.state with time := newNow } }
      match machine.state.delayed.head? with
      | some (dueTime, _) =>
          if dueTime ≤ newNow then
            { machine with
              control := .tick false (.untilParked (.advanceClock newNow))
              state := { machine.state with time := dueTime } }
          else finished
      | none => finished

/-- One step, for what programs do with the memory that they share. -/
def step (action : P → M → M × Action L P) (machine : Machine L P M) (choice : Choice) :
    Option (Machine L P M) :=
  match machine.control with
  | .run program context =>
      let (memory, action) := action program machine.memory
      { machine with memory }.perform context choice action
  | .tick backgroundOnly context =>
      (machine.state.tick backgroundOnly choice).map fun (taken, state) =>
        match taken with
        | some runnable =>
            { machine with
              control := .run runnable.program (.ticked machine.state.isMainThread context)
              state
              started := machine.started ++ [(machine.state.time, runnable)] }
        | none => { machine with control := Control.ticked false context, state }
  | .parked context => some (machine.park context)
  | .finished => none

/-- The runnables are written down with their deadlines. -/
def track (state : TestDispatcherState L P) : TestDispatcherState L (Runnable P) :=
  { state with
    foreground := state.foreground.map fun queue => (queue.1, queue.2.map (⟨·, none⟩))
    background := state.background.map (⟨·, none⟩)
    deprioritizedBackground := state.deprioritizedBackground.map (⟨·, none⟩)
    delayed := state.delayed.map fun entry => (entry.1, ⟨entry.2, some entry.1⟩) }

/-- `advance_clock`, at its start. -/
def advanceClock (state : TestDispatcherState L P) (memory : M) (by_ : Nat) : Machine L P M :=
  { control := .tick false (.untilParked (.advanceClock (state.time + by_)))
    state := track state
    memory
    started := []
    delays := [] }

/-! ## What holds in every run -/

/-- The time that the clock is advanced to. -/
def Context.newNow : {call : Call} → Context P call → Nat
  | _, .ticked _ caller => caller.newNow
  | _, .untilParked caller => caller.newNow
  | _, .afterTick _ caller => caller.newNow
  | _, .afterParked _ caller => caller.newNow
  | _, .advanceClock newNow => newNow

/-- Nothing is left to run. -/
def Parked {T : Type} (state : TestDispatcherState L T) : Prop :=
  state.pools = [] ∧ ∀ entry ∈ state.delayed, state.time < entry.1

/-- What is known about the state from what is done next. -/
def Control.Sound (newNow : Nat) (state : TestDispatcherState L (Runnable P)) :
    Control P → Prop
  | .run _ context => context.newNow = newNow
  | .tick backgroundOnly context => context.newNow = newNow ∧
      (backgroundOnly = true → ∃ next caller, context = .afterTick next caller)
  | .parked context => context.newNow = newNow ∧ Parked state
  | .finished => Parked state ∧ state.time = newNow

/-- The runnables among some that have been delayed. -/
def timers (runnables : List (Runnable P)) : List (Runnable P) :=
  runnables.filter fun runnable => runnable.due.isSome

/-- Every delayed runnable waits until its deadline or is started at it, and none is lost. -/
structure OnTime (delayed : List (Runnable P)) (newNow : Nat) (machine : Machine L P M) :
    Prop where
  control : machine.control.Sound newNow machine.state
  valid : machine.state.Valid
  within : machine.state.time ≤ newNow
  waiting : ∀ entry ∈ machine.state.delayed, entry.2.due = some entry.1
  pooled : ∀ runnable ∈ machine.state.pools, ∀ due, runnable.due = some due →
    due = machine.state.time
  started : ∀ entry ∈ machine.started, ∀ due, entry.2.due = some due →
    entry.1 = due ∧ due ≤ newNow
  balanced : (timers (machine.started.map Prod.snd ++ machine.state.pools) ++
    machine.state.delayed.map Prod.snd).Perm (delayed ++ machine.delays)

variable {delayed : List (Runnable P)} {newNow : Nat} {machine next : Machine L P M}

omit [DecidableEq L] in
/-- Runnables that have not been delayed come to the pools. -/
theorem OnTime.pool (onTime : OnTime delayed newNow machine) (more : List (Runnable P))
    (fresh : timers more = []) (control : next.control.Sound newNow next.state)
    (time : next.state.time = machine.state.time)
    (waiting : next.state.delayed = machine.state.delayed)
    (pools : next.state.pools.Perm (more ++ machine.state.pools))
    (started : next.started = machine.started) (delays : next.delays = machine.delays) :
    OnTime delayed newNow next where
  control
  valid := by
    constructor
    · rw [waiting]
      exact onTime.valid.sorted
    · rw [waiting, time]
      exact onTime.valid.ahead
  within := by
    rw [time]
    exact onTime.within
  waiting := by
    rw [waiting]
    exact onTime.waiting
  pooled := by
    intro runnable member due isDue
    rw [time]
    rcases List.mem_append.mp (pools.mem_iff.mp member) with isNew | before
    · have absent := List.filter_eq_nil_iff.mp fresh runnable isNew
      rw [isDue] at absent
      exact absurd rfl absent
    · exact onTime.pooled runnable before due isDue
  started := by
    rw [started]
    exact onTime.started
  balanced := by
    rw [started, delays, waiting]
    refine List.Perm.trans (List.Perm.append_right _ ?_) onTime.balanced
    have same := (pools.append_left (machine.started.map Prod.snd)).filter
      fun runnable => runnable.due.isSome
    refine same.trans ?_
    rw [timers] at fresh ⊢
    rw [List.filter_append, List.filter_append, fresh, List.nil_append, List.filter_append]

omit [DecidableEq L] in
/-- No runnable comes to the pools. -/
theorem OnTime.stay (onTime : OnTime delayed newNow machine)
    (control : next.control.Sound newNow next.state)
    (time : next.state.time = machine.state.time)
    (waiting : next.state.delayed = machine.state.delayed)
    (pools : next.state.pools = machine.state.pools)
    (started : next.started = machine.started) (delays : next.delays = machine.delays) :
    OnTime delayed newNow next :=
  onTime.pool [] rfl control time waiting (by rw [pools]; rfl) started delays

omit [DecidableEq L] in
theorem Control.ticked_sound {state : TestDispatcherState L (Runnable P)} {result : Bool}
    {context : Context P .tick} (sound : context.newNow = newNow)
    (parked : result = false → (∃ caller, context = .untilParked caller) → Parked state) :
    (Control.ticked result context).Sound newNow state := by
  cases context with
  | untilParked caller =>
      rw [Control.ticked]
      cases result with
      | true => exact ⟨sound, fun only => nomatch only⟩
      | false => exact ⟨sound, parked rfl ⟨caller, rfl⟩⟩
  | afterTick next caller => exact sound

/-- A program that comes to an action. -/
theorem OnTime.perform (onTime : OnTime delayed newNow machine) {program : P}
    {context : Context P .run} (runs : machine.control = .run program context) {choice : Choice}
    {action : Action L P} (performs : machine.perform context choice action = some next) :
    OnTime delayed newNow next ∧ machine.state.time = next.state.time := by
  have sound : context.newNow = newNow := by
    have control := onTime.control
    rw [runs] at control
    exact control
  cases action with
  | done =>
      cases context with
      | ticked wasMainThread caller =>
          cases performs
          refine ⟨onTime.stay ?_ rfl rfl rfl rfl rfl, rfl⟩
          exact Control.ticked_sound sound fun ran => nomatch ran
  | dispatch runnable label next =>
      cases performs
      have fields := machine.state.dispatch_fields ⟨runnable, none⟩ label
      refine ⟨onTime.pool [⟨runnable, none⟩] rfl sound fields.1 fields.2 ?_ rfl rfl,
        fields.1.symm⟩
      exact TestDispatcherState.dispatch_pools _ _ _
  | dispatchOnMainThread id runnable next =>
      cases performs
      refine ⟨onTime.pool [⟨runnable, none⟩] rfl sound rfl rfl ?_ rfl rfl, rfl⟩
      exact TestDispatcherState.dispatchOnMainThread_pools _ _ _
  | dispatchAfter duration runnable next =>
      rcases Option.map_eq_some_iff.mp performs with ⟨state, delays, rfl⟩
      rcases TestDispatcherState.dispatchAfter_spec delays with ⟨time, pools, entries, _⟩
      refine ⟨?_, time.symm⟩
      constructor
      · exact sound
      · exact onTime.valid.dispatchAfter delays
      · dsimp only
        rw [time]
        exact onTime.within
      · intro entry member
        rcases List.mem_cons.mp (entries.mem_iff.mp member) with rfl | before
        · rfl
        · exact onTime.waiting entry before
      · dsimp only
        rw [pools, time]
        exact onTime.pooled
      · exact onTime.started
      · dsimp only
        rw [pools, ← List.append_assoc]
        refine List.Perm.trans (((entries.map Prod.snd).append_left _).trans ?_)
          (onTime.balanced.append_right _)
        rw [List.map_cons]
        exact List.perm_middle.trans (List.perm_append_singleton _ _).symm
  | deprioritize label next =>
      cases performs
      exact ⟨onTime.stay sound rfl rfl rfl rfl rfl, rfl⟩
  | tick backgroundOnly next =>
      cases performs
      exact ⟨onTime.stay ⟨sound, fun _ => ⟨next, context, rfl⟩⟩ rfl rfl rfl rfl rfl, rfl⟩
  | runUntilParked next =>
      cases performs
      exact ⟨onTime.stay ⟨sound, fun only => nomatch only⟩ rfl rfl rfl rfl rfl, rfl⟩
  | observe next =>
      cases performs
      exact ⟨onTime.stay sound rfl rfl rfl rfl rfl, rfl⟩
  | draw next =>
      cases performs
      exact ⟨onTime.stay sound rfl rfl rfl rfl rfl, rfl⟩

theorem least_of_head {T : Type} {entries : List (Nat × T)} {first : Nat × T}
    (sorted : (entries.map Prod.fst).Pairwise (· ≤ ·)) (isFirst : entries.head? = some first) :
    ∀ entry ∈ entries, first.1 ≤ entry.1 := by
  rcases List.head?_eq_some_iff.mp isFirst with ⟨rest, rfl⟩
  intro entry member
  rcases List.mem_cons.mp member with rfl | behind
  · exact le_rfl
  · exact (List.pairwise_cons.mp sorted).1 _ (List.mem_map_of_mem behind)

/-- In a sorted list, all entries are late if the first is. -/
theorem late_of_head {T : Type} {time : Nat} {entries : List (Nat × T)}
    (sorted : (entries.map Prod.fst).Pairwise (· ≤ ·))
    (late : ∀ entry ∈ entries.head?, time < entry.1) : ∀ entry ∈ entries, time < entry.1 := by
  cases entries with
  | nil => exact List.forall_mem_nil _
  | cons first entries =>
      intro entry member
      exact (late first rfl).trans_le (least_of_head sorted rfl entry member)

omit [DecidableEq L] in
/-- A tick starts only runnables whose deadline it is. -/
theorem OnTime.tick (onTime : OnTime delayed newNow machine) {backgroundOnly : Bool}
    {context : Context P .tick} (ticking : machine.control = .tick backgroundOnly context)
    {choice : Choice} {taken : Option (Runnable P)} {state : TestDispatcherState L (Runnable P)}
    (ticks : machine.state.tick backgroundOnly choice = some (taken, state)) :
    OnTime delayed newNow { machine with
      control :=
        match taken with
        | some runnable =>
            .run runnable.program (.ticked machine.state.isMainThread context)
        | none => Control.ticked false context
      state
      started := machine.started ++ taken.toList.map (machine.state.time, ·) } := by
  have control := onTime.control
  rw [ticking] at control
  have valid := onTime.valid.tick ticks
  rcases TestDispatcherState.tick_spec ticks with
    ⟨time, ⟨due, split, early, late, pools⟩, idle⟩
  have isNow : ∀ entry ∈ due, entry.2.due = some machine.state.time := by
    intro entry member
    have among : entry ∈ machine.state.delayed := by
      rw [split]
      exact List.mem_append_left _ member
    rw [onTime.waiting entry among,
      le_antisymm (early entry member) (onTime.valid.ahead entry among)]
  have pooled : ∀ runnable ∈ taken.toList ++ state.pools, ∀ due, runnable.due = some due →
      due = machine.state.time := by
    intro runnable member deadline isDue
    rcases List.mem_append.mp (pools.mem_iff.mpr member) with before | moved
    · exact onTime.pooled runnable before deadline isDue
    · rcases List.mem_map.mp moved with ⟨entry, isEntry, rfl⟩
      rw [isNow entry isEntry] at isDue
      exact (Option.some.inj isDue).symm
  constructor
  · cases taken with
    | some runnable => exact control.1
    | none =>
        apply Control.ticked_sound control.1
        rintro - ⟨caller, rfl⟩
        have isLoop : backgroundOnly = false := by
          rw [Bool.eq_false_iff]
          intro only
          rcases control.2 only with ⟨next, caller, other⟩
          cases other
        refine ⟨idle rfl isLoop, ?_⟩
        intro entry member
        dsimp only at member ⊢
        rw [time]
        exact late_of_head valid.sorted late entry member
  · exact valid
  · exact time.trans_le onTime.within
  · intro entry member
    apply onTime.waiting
    rw [split]
    exact List.mem_append_right _ member
  · intro runnable member deadline isDue
    dsimp only
    rw [time]
    exact pooled runnable (List.mem_append_right _ member) deadline isDue
  · intro entry member deadline isDue
    rcases List.mem_append.mp member with before | new
    · exact onTime.started entry before deadline isDue
    · rcases List.mem_map.mp new with ⟨runnable, isTaken, rfl⟩
      have same := pooled runnable (List.mem_append_left _ isTaken) deadline isDue
      exact ⟨same.symm, same.trans_le onTime.within⟩
  · have moved : timers (due.map Prod.snd) = due.map Prod.snd := by
      apply List.filter_eq_self.mpr
      intro runnable member
      rcases List.mem_map.mp member with ⟨entry, isEntry, rfl⟩
      rw [isNow entry isEntry]
      rfl
    have started : (machine.started ++ taken.toList.map (machine.state.time, ·)).map Prod.snd =
        machine.started.map Prod.snd ++ taken.toList := by
      rw [List.map_append, List.map_map]
      exact congrArg _ (List.map_id _)
    have balanced := onTime.balanced
    rw [split, List.map_append, ← List.append_assoc] at balanced
    refine List.Perm.trans (List.Perm.append_right _ ?_) balanced
    dsimp only
    rw [started, List.append_assoc, ← moved, timers, timers, timers, ← List.filter_append,
      List.append_assoc]
    exact (pools.symm.append_left (machine.started.map Prod.snd)).filter _

omit [DecidableEq L] in
/-- The clock can be set to any time up to the next deadline when nothing is left to run. -/
theorem OnTime.setTime (onTime : OnTime delayed newNow machine)
    (nothing : machine.state.pools = []) {time : Nat} (within : time ≤ newNow)
    (ahead : ∀ entry ∈ machine.state.delayed, time ≤ entry.1) {control : Control P}
    (sound : control.Sound newNow { machine.state with time }) :
    OnTime delayed newNow { machine with control, state := { machine.state with time } } where
  control := sound
  valid := ⟨onTime.valid.sorted, ahead⟩
  within
  waiting := onTime.waiting
  pooled := by
    intro runnable member
    have absent : runnable ∈ machine.state.pools := member
    rw [nothing] at absent
    cases absent
  started := onTime.started
  balanced := onTime.balanced

omit [DecidableEq L] in
/-- When nothing is left to run, the clock goes to the next deadline, or to the end. -/
theorem OnTime.park (onTime : OnTime delayed newNow machine)
    {context : Context P .runUntilParked} (parked : machine.control = .parked context) :
    OnTime delayed newNow (machine.park context) ∧
      machine.state.time ≤ (machine.park context).state.time := by
  have control := onTime.control
  rw [parked] at control
  rcases control with ⟨sound, nothing, later⟩
  cases context with
  | afterParked next caller => exact ⟨onTime.stay sound rfl rfl rfl rfl rfl, le_rfl⟩
  | advanceClock newNow' =>
      have same : newNow' = newNow := sound
      subst same
      rw [Machine.park]
      dsimp only
      split
      next due runnable isFirst =>
        have among : (due, runnable) ∈ machine.state.delayed := List.mem_of_mem_head? isFirst
        split_ifs with isDue
        · refine ⟨onTime.setTime nothing isDue ?_ ⟨sound, fun only => nomatch only⟩,
            (later _ among).le⟩
          exact least_of_head onTime.valid.sorted isFirst
        · have behind : ∀ entry ∈ machine.state.delayed, newNow' < entry.1 := by
            apply late_of_head onTime.valid.sorted
            intro entry isEntry
            rw [isFirst] at isEntry
            rw [← Option.some.inj isEntry]
            exact not_le.mp isDue
          refine ⟨onTime.setTime nothing le_rfl (fun entry member => (behind entry member).le) ?_,
            onTime.within⟩
          exact ⟨⟨nothing, behind⟩, rfl⟩
      next none =>
        have empty : machine.state.delayed = [] := List.head?_eq_none_iff.mp none
        have behind : ∀ entry ∈ machine.state.delayed, newNow' < entry.1 := by
          rw [empty]
          exact List.forall_mem_nil _
        refine ⟨onTime.setTime nothing le_rfl (fun entry member => (behind entry member).le) ?_,
          onTime.within⟩
        exact ⟨⟨nothing, behind⟩, rfl⟩

/-- One step. -/
theorem OnTime.stepped (onTime : OnTime delayed newNow machine)
    {action : P → M → M × Action L P} {choice : Choice}
    (steps : step action machine choice = some next) :
    OnTime delayed newNow next ∧ machine.state.time ≤ next.state.time := by
  rw [step] at steps
  cases control : machine.control with
  | run program context =>
      rw [control] at steps
      have remembers : OnTime delayed newNow
          { machine with memory := (action program machine.memory).1 } :=
        onTime.stay onTime.control rfl rfl rfl rfl rfl
      rcases remembers.perform control steps with ⟨kept, time⟩
      exact ⟨kept, time.le⟩
  | tick backgroundOnly context =>
      rw [control] at steps
      rcases Option.map_eq_some_iff.mp steps with ⟨⟨taken, state⟩, ticks, rfl⟩
      have kept := onTime.tick control ticks
      have time := (TestDispatcherState.tick_spec ticks).1
      cases taken with
      | some runnable => exact ⟨kept, time.ge⟩
      | none =>
          rw [Option.toList_none, List.map_nil, List.append_nil] at kept
          exact ⟨kept, time.ge⟩
  | parked context =>
      rw [control] at steps
      rw [← Option.some.inj steps]
      exact onTime.park control
  | finished =>
      rw [control] at steps
      cases steps

/-- Something can always be done. -/
theorem OnTime.exists_step (onTime : OnTime delayed newNow machine)
    (action : P → M → M × Action L P) :
    machine.control = .finished ∨ ∃ choice next, step action machine choice = some next := by
  cases control : machine.control with
  | run program context =>
      right
      simp only [step, control]
      cases (action program machine.memory).2 with
      | done =>
          cases context with
          | ticked wasMainThread caller => exact ⟨⟨false, 0⟩, _, rfl⟩
      | dispatchAfter duration runnable next =>
          rcases TestDispatcherState.exists_dispatchAfter onTime.valid.sorted duration
            (⟨runnable, some (machine.state.time + duration)⟩ : Runnable P) with
            ⟨choice, state, delays⟩
          exact ⟨choice, _, Option.map_eq_some_iff.mpr ⟨state, delays, rfl⟩⟩
      | dispatch | dispatchOnMainThread | deprioritize | tick | runUntilParked | observe | draw =>
          exact ⟨⟨false, 0⟩, _, rfl⟩
  | tick backgroundOnly context =>
      right
      rcases machine.state.exists_tick backgroundOnly with ⟨choice, result, ticks⟩
      refine ⟨choice, ?_⟩
      simp only [step, control]
      exact ⟨_, Option.map_eq_some_iff.mpr ⟨result, ticks, rfl⟩⟩
  | parked context => exact Or.inr ⟨⟨false, 0⟩, _, by rw [step, control]⟩
  | finished => exact Or.inl rfl

end TestDispatcher

end Gpui
