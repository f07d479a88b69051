import Gpui.Executor.TestClock

/-!
# Advancing the clock

Where programs end, and no instant sees them create others for ever, a clock that is advanced
comes to its end.
-/

namespace Gpui

open Library

namespace TestDispatcher

variable {L P M : Type} [DecidableEq L] {delayed : List (Runnable P)} {newNow : Nat}
  {machine next : Machine L P M}

def Steps (action : P → M → M × Action L P) (next machine : Machine L P M) : Prop :=
  ∃ choice, step action machine choice = some next

/-- A step while the clock stands still. -/
def SameInstant (action : P → M → M × Action L P) (next machine : Machine L P M) : Prop :=
  Steps action next machine ∧ next.state.time = machine.state.time

/-! ## Programs that end -/

/-- The programs that an action leads to at once. -/
def Action.Leads (program : P) : Action L P → Prop
  | .done => False
  | .dispatch runnable _ next => program = runnable ∨ program = next
  | .dispatchOnMainThread _ runnable next => program = runnable ∨ program = next
  | .dispatchAfter duration runnable next =>
      duration = 0 ∧ program = runnable ∨ program = next
  | .deprioritize _ next => program = next
  | .tick _ next => ∃ ran, program = next ran
  | .runUntilParked next => program = next
  | .observe next => ∃ time isMainThread, program = next time isMainThread
  | .draw next => ∃ drawn, program = next drawn

/-- A program leads to another at once, whatever the memory. -/
def Immediate (action : P → M → M × Action L P) (next program : P) : Prop :=
  ∃ memory, (action program memory).2.Leads next

/-- The programs that are underway and wait for a call to return. -/
def Context.programs : {call : Call} → Context P call → Multiset P
  | _, .ticked _ caller => caller.programs
  | _, .untilParked caller => caller.programs
  | _, .afterTick next caller => {next true} + {next false} + caller.programs
  | _, .afterParked next caller => {next} + caller.programs
  | _, .advanceClock _ => 0

def Control.programs : Control P → Multiset P
  | .run program context => {program} + context.programs
  | .tick _ context => context.programs
  | .parked context => context.programs
  | .finished => 0

/-- The programs that are to run at this instant. -/
def pending (state : TestDispatcherState L (Runnable P)) : Multiset P :=
  ((state.pools ++ (state.delayed.filter fun entry => entry.1 ≤ state.time).map Prod.snd).map
    Runnable.program : List P)

/-- All programs of this instant. -/
def Machine.programs (machine : Machine L P M) : Multiset P :=
  machine.control.programs + pending machine.state

/-- How many steps are to be done before something runs. -/
def Control.rank : Control P → Nat
  | .tick _ _ => 2
  | .parked _ => 1
  | .run _ _ | .finished => 0

/-- The programs become less, or what is left of them comes closer to running. -/
def Lower (action : P → M → M × Action L P) (next machine : Machine L P M) : Prop :=
  Prod.Lex (Relation.TransGen (Relation.CutExpand (Immediate action)))
    (Prod.Lex (· < ·) (· < ·))
    (next.programs, Multiset.card (pending next.state), next.control.rank)
    (machine.programs, Multiset.card (pending machine.state), machine.control.rank)

omit [DecidableEq L] in
theorem lower_wellFounded {action : P → M → M × Action L P}
    (ends : WellFounded (Immediate action)) : WellFounded (Lower action) :=
  InvImage.wf _ (ends.cutExpand.transGen.prod_lex (Nat.lt_wfRel.wf.prod_lex Nat.lt_wfRel.wf))

section Pending

variable {state after : TestDispatcherState L (Runnable P)}

omit [DecidableEq L] in
theorem pending_of_perm (time : after.time = state.time) (waiting : after.delayed = state.delayed)
    {runnable : Runnable P} (pools : after.pools.Perm (runnable :: state.pools)) :
    pending after = {runnable.program} + pending state := by
  rw [pending, pending, waiting, time, ← Multiset.coe_singleton, Multiset.coe_add]
  exact Multiset.coe_eq_coe.mpr ((pools.append_right _).map _)

omit [DecidableEq L] in
theorem pending_dispatchAfter {duration : Nat} {runnable : Runnable P} {choice : Choice}
    (delays : state.dispatchAfter duration runnable choice = some after) :
    pending after = (if duration = 0 then {runnable.program} else 0) + pending state := by
  rcases TestDispatcherState.dispatchAfter_spec delays with ⟨time, pools, entries, _⟩
  have dueNow := entries.filter fun entry => entry.1 ≤ state.time
  rw [List.filter_cons] at dueNow
  rw [pending, pending, pools, time]
  by_cases now : duration = 0
  · rw [if_pos (by simp [now])] at dueNow
    rw [if_pos now, ← Multiset.coe_singleton, Multiset.coe_add]
    apply Multiset.coe_eq_coe.mpr
    have moved := ((dueNow.map Prod.snd).append_left state.pools).map Runnable.program
    rw [List.map_cons] at moved
    exact moved.trans (List.perm_middle.map _)
  · rw [if_neg (by simpa using now)] at dueNow
    rw [if_neg now, zero_add]
    exact Multiset.coe_eq_coe.mpr (((dueNow.map _).append_left _).map _)

omit [DecidableEq L] in
/-- A tick takes the runnable that it starts, and no other. -/
theorem pending_tick (valid : state.Valid) {backgroundOnly : Bool} {choice : Choice}
    {taken : Option (Runnable P)}
    (ticks : state.tick backgroundOnly choice = some (taken, after)) :
    pending state = (taken.toList.map Runnable.program : List P) + pending after := by
  rcases TestDispatcherState.tick_spec ticks with
    ⟨time, ⟨due, split, early, late, pools⟩, _⟩
  have behind := late_of_head (valid.tick ticks).sorted late
  have dueNow : state.delayed.filter (fun entry => entry.1 ≤ state.time) = due := by
    rw [split, List.filter_append, List.filter_eq_self.mpr, List.filter_eq_nil_iff.mpr,
      List.append_nil]
    · intro entry member
      simpa using behind entry member
    · intro entry member
      simpa using early entry member
  have noneLeft : after.delayed.filter (fun entry => entry.1 ≤ after.time) = [] := by
    apply List.filter_eq_nil_iff.mpr
    intro entry member
    rw [time]
    simpa using behind entry member
  rw [pending, pending, dueNow, noneLeft, Multiset.coe_add, List.map_nil, List.append_nil,
    ← List.map_append]
  exact Multiset.coe_eq_coe.mpr (pools.map _)

end Pending

section Settling

variable {action : P → M → M × Action L P}

omit [DecidableEq L] in
/-- A program gives way to those that it leads to. -/
theorem cut {program : P} {more : Multiset P}
    (leads : ∀ next ∈ more, Immediate action next program) (rest : Multiset P) :
    Relation.TransGen (Relation.CutExpand (Immediate action)) (more + rest)
      ({program} + rest) :=
  .single ((Relation.cutExpand_add_right rest).mpr (Relation.cutExpand_singleton leads))

omit [DecidableEq L] in
theorem cut_none (program : P) (rest : Multiset P) :
    Relation.TransGen (Relation.CutExpand (Immediate action)) rest ({program} + rest) := by
  have nothing : ∀ next ∈ (0 : Multiset P), Immediate action next program :=
    fun next none => absurd none (Multiset.notMem_zero next)
  have gone := cut nothing rest
  rwa [zero_add] at gone

omit [DecidableEq L] in
theorem cut_one {program next : P} (leads : Immediate action next program) (rest : Multiset P) :
    Relation.TransGen (Relation.CutExpand (Immediate action)) ({next} + rest)
      ({program} + rest) :=
  cut (fun _ member => Multiset.mem_singleton.mp member ▸ leads) rest

omit [DecidableEq L] in
/-- A program gives way to one that waits and the one that it goes on with. -/
theorem cut_two {program runnable next : P} {performed : Action L P} {context : Context P .run}
    {state after : TestDispatcherState L (Runnable P)}
    (leads : ∀ next, performed.Leads next → Immediate action next program)
    (isRunnable : performed.Leads runnable) (isNext : performed.Leads next)
    (waits : pending after = {runnable} + pending state) :
    Relation.TransGen (Relation.CutExpand (Immediate action))
      ((Control.run next context).programs + pending after)
      ({program} + (context.programs + pending state)) := by
  have order : (Control.run next context).programs + pending after =
      {runnable} + {next} + (context.programs + pending state) := by
    rw [waits, Control.programs]
    abel
  rw [order]
  apply cut
  intro other member
  rcases Multiset.mem_add.mp member with isOther | isOther
  · rw [Multiset.mem_singleton.mp isOther]
    exact leads _ isRunnable
  · rw [Multiset.mem_singleton.mp isOther]
    exact leads _ isNext

/-- What a program leaves is less than the program. -/
theorem perform_programs {program : P} {context : Context P .run}
    (runs : machine.control = .run program context) {choice : Choice} {memory : M}
    (performs : machine.perform context choice (action program memory).2 = some next) :
    Relation.TransGen (Relation.CutExpand (Immediate action)) next.programs machine.programs := by
  have leads : ∀ next, (action program memory).2.Leads next → Immediate action next program :=
    fun next leads => ⟨memory, leads⟩
  have before : machine.programs =
      {program} + (context.programs + pending machine.state) := by
    rw [Machine.programs, runs, Control.programs, add_assoc]
  rw [before]
  generalize (action program memory).2 = performed at performs leads
  cases performed with
  | done =>
      cases context with
      | ticked wasMainThread caller =>
          cases performs
          cases caller with
          | untilParked caller => exact cut_none program _
          | afterTick next caller =>
              apply Relation.TransGen.trans (cut_none (next false) _)
              have order : {next false} + ({next true} + caller.programs + pending machine.state) =
                  {next true} + {next false} + caller.programs + pending machine.state := by
                abel
              exact order ▸ cut_none program _
  | dispatch runnable label next =>
      cases performs
      apply cut_two leads (Or.inl rfl) (Or.inr rfl)
      have fields := machine.state.dispatch_fields ⟨runnable, none⟩ label
      exact pending_of_perm fields.1 fields.2 (TestDispatcherState.dispatch_pools _ _ _)
  | dispatchOnMainThread id runnable next =>
      cases performs
      apply cut_two leads (Or.inl rfl) (Or.inr rfl)
      apply pending_of_perm _ _
        (machine.state.dispatchOnMainThread_pools id (⟨runnable, none⟩ : Runnable P))
      · rfl
      · rfl
  | dispatchAfter duration runnable next =>
      rcases Option.map_eq_some_iff.mp performs with ⟨state, delays, rfl⟩
      have dueNow := pending_dispatchAfter delays
      by_cases now : duration = 0
      · rw [if_pos now] at dueNow
        exact cut_two leads (Or.inl ⟨now, rfl⟩) (Or.inr rfl) dueNow
      · rw [if_neg now, zero_add] at dueNow
        rw [Machine.programs, Control.programs, dueNow, add_assoc]
        exact cut_one (leads _ (Or.inr rfl)) _
  | deprioritize label next =>
      cases performs
      rw [Machine.programs, Control.programs, add_assoc]
      exact cut_one (leads _ rfl) _
  | tick backgroundOnly next =>
      cases performs
      rw [Machine.programs, Control.programs, Context.programs, add_assoc]
      apply cut
      intro other member
      rcases Multiset.mem_add.mp member with isNext | isNext
      · exact leads other ⟨true, Multiset.mem_singleton.mp isNext⟩
      · exact leads other ⟨false, Multiset.mem_singleton.mp isNext⟩
  | runUntilParked next =>
      cases performs
      rw [Machine.programs, Control.programs, Context.programs, Context.programs, add_assoc]
      exact cut_one (leads _ rfl) _
  | observe next =>
      cases performs
      rw [Machine.programs, Control.programs, add_assoc]
      exact cut_one (leads _ ⟨_, _, rfl⟩) _
  | draw next =>
      cases performs
      rw [Machine.programs, Control.programs, add_assoc]
      exact cut_one (leads _ ⟨_, rfl⟩) _

omit [DecidableEq L] in
theorem lower_of_card (programs : next.programs = machine.programs)
    (card : Multiset.card (pending next.state) < Multiset.card (pending machine.state)) :
    Lower action next machine := by
  rw [Lower, programs]
  exact Prod.Lex.right _ (Prod.Lex.left _ _ card)

omit [DecidableEq L] in
theorem lower_of_rank (programs : next.programs = machine.programs)
    (pendings : pending next.state = pending machine.state)
    (rank : next.control.rank < machine.control.rank) : Lower action next machine := by
  rw [Lower, programs, pendings]
  exact Prod.Lex.right _ (Prod.Lex.right _ rank)

/-- While the clock stands still, every step brings the end closer. -/
theorem OnTime.lower (onTime : OnTime delayed newNow machine)
    (steps : SameInstant action next machine) : Lower action next machine := by
  rcases steps with ⟨⟨choice, steps⟩, still⟩
  rw [step] at steps
  cases control : machine.control with
  | run program context =>
      rw [control] at steps
      have less : Relation.TransGen (Relation.CutExpand (Immediate action)) next.programs
          (Machine.programs { machine with memory := (action program machine.memory).1 }) :=
        perform_programs control steps
      exact Prod.Lex.left _ _ less
  | tick backgroundOnly context =>
      rw [control] at steps
      rcases Option.map_eq_some_iff.mp steps with ⟨⟨taken, state⟩, ticks, rfl⟩
      have before := pending_tick onTime.valid ticks
      cases taken with
      | some runnable =>
          have taken : pending machine.state = {runnable.program} + pending state := before
          apply lower_of_card
          · rw [Machine.programs, Machine.programs, control, taken, Control.programs,
              Control.programs, Context.programs]
            abel
          · rw [taken, Multiset.card_add, Multiset.card_singleton]
            exact Nat.lt_one_add_iff.mpr le_rfl
      | none =>
          have same : pending machine.state = pending state := before.trans (zero_add _)
          cases context with
          | untilParked caller =>
              apply lower_of_rank
              · rw [Machine.programs, Machine.programs, control, same]
                rfl
              · exact same.symm
              · rw [control]
                exact Nat.lt_succ_self 1
          | afterTick next caller =>
              apply Prod.Lex.left
              have order : machine.programs =
                  {next true} + ({next false} + caller.programs + pending state) := by
                rw [Machine.programs, control, same, Control.programs, Context.programs]
                abel
              rw [order]
              exact cut_none _ _
  | parked context =>
      rw [control] at steps
      have sound := onTime.control
      rw [control] at sound
      rcases sound with ⟨_, _, later⟩
      cases Option.some.inj steps
      cases context with
      | afterParked next caller =>
          apply lower_of_rank
          · rw [Machine.programs, Machine.programs, control]
            rfl
          · rfl
          · rw [control]
            exact Nat.zero_lt_one
      | advanceClock newNow =>
          have finishes : newNow = machine.state.time → Lower action { machine with
              control := .finished
              state := { machine.state with time := newNow } } machine := by
            rintro rfl
            apply lower_of_rank
            · rw [Machine.programs, Machine.programs, control]
              rfl
            · rfl
            · rw [control]
              exact Nat.zero_lt_one
          rw [Machine.park] at still ⊢
          cases isFirst : machine.state.delayed.head? with
          | none =>
              rw [isFirst] at still
              exact finishes still
          | some entry =>
              rw [isFirst] at still
              dsimp only at still ⊢
              by_cases isDue : entry.1 ≤ newNow
              · rw [if_pos isDue] at still
                -- a deadline at which nothing is left to run has not come
                exact absurd still (later entry (List.mem_of_mem_head? isFirst)).ne'
              · rw [if_neg isDue] at still ⊢
                exact finishes still
  | finished =>
      rw [control] at steps
      cases steps

/-- Programs that end, with those that they create at once, leave no instant without an end. -/
theorem OnTime.settles (onTime : OnTime delayed newNow machine)
    (ends : WellFounded (Immediate action)) : Acc (SameInstant action) machine := by
  induction machine using (lower_wellFounded (L := L) (M := M) ends).induction with
  | _ machine ih =>
      constructor
      intro next steps
      rcases steps.1 with ⟨choice, stepped⟩
      exact ih next (onTime.lower steps) (onTime.stepped stepped).1

end Settling

/-! ## Advancing the clock -/

omit [DecidableEq L] in
theorem track_due (state : TestDispatcherState L P) :
    ∀ runnable ∈ (track state).pools, runnable.due = none := by
  intro runnable member
  rw [TestDispatcherState.pools, List.mem_append, List.mem_append] at member
  rcases member with (isForeground | isBackground) | isDeprioritized
  · rcases List.mem_flatMap.mp isForeground with ⟨queue, isQueue, isMember⟩
    rcases List.mem_map.mp isQueue with ⟨original, _, rfl⟩
    rcases List.mem_map.mp isMember with ⟨program, _, rfl⟩
    rfl
  · rcases List.mem_map.mp isBackground with ⟨program, _, rfl⟩
    rfl
  · rcases List.mem_map.mp isDeprioritized with ⟨program, _, rfl⟩
    rfl

omit [DecidableEq L] in
theorem advanceClock_onTime {state : TestDispatcherState L P} (valid : state.Valid) (memory : M)
    (by_ : Nat) :
    OnTime ((track state).delayed.map Prod.snd) (state.time + by_)
      (advanceClock state memory by_) where
  control := ⟨rfl, fun only => nomatch only⟩
  valid := by
    constructor
    · rw [advanceClock, track, List.map_map]
      exact valid.sorted
    · intro entry member
      rcases List.mem_map.mp member with ⟨original, isDelayed, rfl⟩
      exact valid.ahead original isDelayed
  within := Nat.le_add_right _ _
  waiting := by
    intro entry member
    rcases List.mem_map.mp member with ⟨original, _, rfl⟩
    rfl
  pooled := by
    intro runnable member due isDue
    rw [track_due state runnable member] at isDue
    cases isDue
  started := List.forall_mem_nil _
  balanced := by
    have fresh : timers (track state).pools = [] := by
      apply List.filter_eq_nil_iff.mpr
      intro runnable member
      rw [track_due state runnable member]
      exact Bool.false_ne_true
    rw [advanceClock, List.map_nil, List.nil_append, fresh, List.append_nil]
    exact List.Perm.refl _

/-- What is reached when the clock is advanced, with some draws. -/
def Reaches (action : P → M → M × Action L P) (state : TestDispatcherState L P) (memory : M)
    (by_ : Nat) (machine : Machine L P M) : Prop :=
  ∃ choices, Run (step action) (fun _ _ => True) (advanceClock state memory by_) choices machine

/-- Runnables that have been delayed, to be started by some time. -/
def dueBy (newNow : Nat) (runnables : List (Runnable P)) : List (Runnable P) :=
  runnables.filter fun runnable => runnable.due.any (· ≤ newNow)

/-- What is expected of a clock that is advanced: it ends at its time with nothing left to run,
and has run exactly the delayed runnables that were due by then, each at its deadline. -/
structure FiresAtDeadlines (action : P → M → M × Action L P) (state : TestDispatcherState L P)
    (memory : M) (by_ : Nat) : Prop where
  ends : Acc (Steps action) (advanceClock state memory by_)
  proceeds : ∀ machine, Reaches action state memory by_ machine →
    machine.control = .finished ∨ ∃ choice next, step action machine choice = some next
  sorted : ∀ machine, Reaches action state memory by_ machine →
    (machine.state.delayed.map Prod.fst).Pairwise (· ≤ ·)
  forward : ∀ machine next, Reaches action state memory by_ machine → Steps action next machine →
    machine.state.time ≤ next.state.time
  atDeadline : ∀ machine, Reaches action state memory by_ machine →
    ∀ entry ∈ machine.started, ∀ due, entry.2.due = some due → entry.1 = due
  finished : ∀ machine, Reaches action state memory by_ machine → machine.control = .finished →
    machine.state.time = state.time + by_ ∧ Parked machine.state ∧
      (timers (machine.started.map Prod.snd)).Perm
        (dueBy (state.time + by_) ((track state).delayed.map Prod.snd ++ machine.delays))

section Advance

variable {action : P → M → M × Action L P} {state : TestDispatcherState L P} {memory : M}
  {by_ : Nat}

theorem Reaches.onTime (reaches : Reaches action state memory by_ machine) (valid : state.Valid) :
    OnTime ((track state).delayed.map Prod.snd) (state.time + by_) machine := by
  rcases reaches with ⟨choices, run⟩
  apply run.invariant fun _ machine =>
    OnTime ((track state).delayed.map Prod.snd) (state.time + by_) machine
  · exact advanceClock_onTime valid memory by_
  · intro _ _ _ _ onTime _ steps
    exact (onTime.stepped steps).1

theorem Reaches.stepped (reaches : Reaches action state memory by_ machine)
    (steps : Steps action next machine) : Reaches action state memory by_ next := by
  rcases reaches with ⟨choices, run⟩
  rcases steps with ⟨choice, steps⟩
  exact ⟨choices ++ [choice], run.snoc trivial steps⟩

omit [DecidableEq L] in
/-- What has been started when nothing is left to run. -/
theorem OnTime.started_perm (onTime : OnTime delayed newNow machine)
    (finished : machine.control = .finished) :
    (timers (machine.started.map Prod.snd)).Perm (dueBy newNow (delayed ++ machine.delays)) := by
  have control := onTime.control
  rw [finished] at control
  rcases control with ⟨⟨nothing, later⟩, atEnd⟩
  have balanced := onTime.balanced
  rw [nothing, List.append_nil] at balanced
  have early : dueBy newNow (timers (machine.started.map Prod.snd)) =
      timers (machine.started.map Prod.snd) := by
    apply List.filter_eq_self.mpr
    intro runnable member
    rcases List.mem_filter.mp member with ⟨isStarted, isTimer⟩
    rcases Option.isSome_iff_exists.mp isTimer with ⟨due, isDue⟩
    rcases List.mem_map.mp isStarted with ⟨entry, isEntry, rfl⟩
    rw [isDue]
    exact decide_eq_true (onTime.started entry isEntry due isDue).2
  have late : dueBy newNow (machine.state.delayed.map Prod.snd) = [] := by
    apply List.filter_eq_nil_iff.mpr
    intro runnable member
    rcases List.mem_map.mp member with ⟨entry, isEntry, rfl⟩
    have after := later entry isEntry
    rw [onTime.waiting entry isEntry, Option.any_some, decide_eq_true_eq, ← atEnd]
    exact not_le.mpr after
  have same := balanced.filter fun runnable => runnable.due.any (· ≤ newNow)
  rw [List.filter_append] at same
  rw [dueBy] at early late
  rw [early, late, List.append_nil] at same
  exact same

theorem advanceClock_firesAtDeadlines (valid : state.Valid)
    (settles : ∀ machine, Reaches action state memory by_ machine →
      Acc (SameInstant action) machine) :
    FiresAtDeadlines action state memory by_ := by
  constructor
  · apply acc_of_rank (Reaches action state memory by_)
      (fun machine => state.time + by_ - machine.state.time)
    · intro machine next reaches steps
      exact reaches.stepped steps
    · intro machine next reaches steps
      rcases steps with ⟨choice, steps⟩
      exact Nat.sub_le_sub_left ((reaches.onTime valid).stepped steps).2 _
    · intro machine reaches
      apply Subrelation.accessible _ (settles machine reaches)
      rintro next machine ⟨reaches, steps, same⟩
      refine ⟨steps, ?_⟩
      have within := (reaches.onTime valid).within
      have nextWithin := ((reaches.stepped steps).onTime valid).within
      omega
    · exact ⟨[], .nil⟩
  · intro machine reaches
    exact (reaches.onTime valid).exists_step action
  · intro machine reaches
    exact (reaches.onTime valid).valid.sorted
  · rintro machine next reaches ⟨choice, steps⟩
    exact ((reaches.onTime valid).stepped steps).2
  · intro machine reaches entry member due isDue
    exact ((reaches.onTime valid).started entry member due isDue).1
  · intro machine reaches finished
    have onTime := reaches.onTime valid
    have control := onTime.control
    rw [finished] at control
    exact ⟨control.2, control.1, onTime.started_perm finished⟩

/-- A timer that starts itself again after 10, and ends. -/
def repeating : Bool → Unit → Unit × Action Unit Bool
  | true, memory => (memory, .dispatchAfter 10 true false)
  | false, memory => (memory, .done)

theorem repeating_ends : WellFounded (Immediate repeating) := by
  apply Subrelation.wf _ (measure Bool.toNat).wf
  rintro next program ⟨memory, leads⟩
  cases program with
  | false => cases leads
  | true =>
      rcases leads with ⟨now, _⟩ | rfl
      · cases now
      · exact Nat.zero_lt_one

/-- The timer is due at 5, 15 and 25 when the clock is advanced by 30. -/
theorem advanceClock_firesAtDeadlines_repeating :
    FiresAtDeadlines repeating { TestDispatcherState.new with delayed := [(5, true)] } () 30 := by
  have valid : TestDispatcherState.Valid
      { (TestDispatcherState.new : TestDispatcherState Unit Bool) with
        delayed := [(5, true)] } :=
    ⟨List.pairwise_singleton _ _, fun _ _ => Nat.zero_le _⟩
  apply advanceClock_firesAtDeadlines valid
  intro machine reaches
  exact (reaches.onTime valid).settles repeating_ends

end Advance

end TestDispatcher

end Gpui
