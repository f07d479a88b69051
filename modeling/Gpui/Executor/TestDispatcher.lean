import Mathlib

/-!
# The test dispatcher

Tests run on a simulated clock.  Runnables wait in the queues of the foreground and in the pools
of the background, and delayed ones in a list that is sorted by their deadlines.  `tick` moves
those that are due to the background and takes a runnable at random.
-/

namespace Gpui

/-- The state of the dispatcher, for runnables and task labels of any type.  What the random
generator draws is given to each operation that draws. -/
structure TestDispatcherState (L T : Type) where
  foreground : List (Nat × List T)
  background : List T
  deprioritizedBackground : List T
  delayed : List (Nat × T)
  time : Nat
  isMainThread : Bool
  deprioritizedTaskLabels : List L

namespace TestDispatcher

/-- What is drawn, or found by a binary search. -/
structure Choice where
  mainThread : Bool
  index : Nat
deriving DecidableEq, Repr

variable {L T : Type}

/-- `swap_remove`: the last element takes the place of the one that is removed. -/
def swapRemove (elements : List T) (index : Nat) : Option (T × List T) :=
  elements[index]?.map fun element =>
    (element, (elements.set index (elements.getLast?.getD element)).dropLast)

/-- The queue that is drawn, which must not be empty, is popped at its front. -/
def popForeground : Nat → List (Nat × List T) → Option (T × List (Nat × List T))
  | _, [] => none
  | 0, (_, []) :: _ => none
  | 0, (id, runnable :: queue) :: queues => some (runnable, (id, queue) :: queues)
  | index + 1, queue :: queues =>
      (popForeground index queues).map fun (runnable, queues) => (runnable, queue :: queues)

def pushForeground (id : Nat) (runnable : T) : List (Nat × List T) → List (Nat × List T)
  | [] => [(id, [runnable])]
  | (other, queue) :: queues =>
      if other = id then (other, queue ++ [runnable]) :: queues
      else (other, queue) :: pushForeground id runnable queues

/-- What a binary search for a key may answer: any place of the key or, if it is not there, the
place where it belongs. -/
def SearchResult (keys : List Nat) (key index : Nat) : Prop :=
  if key ∈ keys then keys[index]? = some key
  else index ≤ keys.length ∧ (∀ before ∈ keys.take index, before < key) ∧
    ∀ after ∈ keys.drop index, key < after

instance (keys : List Nat) (key index : Nat) : Decidable (SearchResult keys key index) :=
  inferInstanceAs (Decidable (ite ..))

/-- The runnables that are due go to the background. -/
def takeDue (time : Nat) : List (Nat × T) → List T → List (Nat × T) × List T
  | [], background => ([], background)
  | (deadline, runnable) :: delayed, background =>
      if deadline > time then ((deadline, runnable) :: delayed, background)
      else takeDue time delayed (background ++ [runnable])

end TestDispatcher

namespace TestDispatcherState

open TestDispatcher

variable {L T : Type} [DecidableEq L]

omit [DecidableEq L] in
def new : TestDispatcherState L T :=
  { foreground := []
    background := []
    deprioritizedBackground := []
    delayed := []
    time := 0
    isMainThread := true
    deprioritizedTaskLabels := [] }

def dispatch (self : TestDispatcherState L T) (runnable : T) (label : Option L) :
    TestDispatcherState L T :=
  if label.any fun label => label ∈ self.deprioritizedTaskLabels then
    { self with deprioritizedBackground := self.deprioritizedBackground ++ [runnable] }
  else { self with background := self.background ++ [runnable] }

omit [DecidableEq L] in
def dispatchOnMainThread (self : TestDispatcherState L T) (id : Nat) (runnable : T) :
    TestDispatcherState L T :=
  { self with foreground := pushForeground id runnable self.foreground }

omit [DecidableEq L] in
def dispatchAfter (self : TestDispatcherState L T) (duration : Nat) (runnable : T)
    (choice : Choice) : Option (TestDispatcherState L T) :=
  let nextTime := self.time + duration
  if SearchResult (self.delayed.map Prod.fst) nextTime choice.index then
    some { self with
      delayed := self.delayed.take choice.index ++
        (nextTime, runnable) :: self.delayed.drop choice.index }
  else none

def deprioritize (self : TestDispatcherState L T) (label : L) : TestDispatcherState L T :=
  { self with deprioritizedTaskLabels := self.deprioritizedTaskLabels.insert label }

omit [DecidableEq L] in
/-- The length of the queues that a tick may draw from. -/
def foregroundLen (self : TestDispatcherState L T) (backgroundOnly : Bool) : Nat :=
  if backgroundOnly then 0 else (self.foreground.map fun queue => queue.2.length).sum

omit [DecidableEq L] in
/-- `tick` up to where the runnable runs, with the runnable that it takes, if any.  There is no
result for a draw that is not possible. -/
def tick (self : TestDispatcherState L T) (backgroundOnly : Bool) (choice : Choice) :
    Option (Option T × TestDispatcherState L T) :=
  let (delayed, background) := takeDue self.time self.delayed self.background
  let state : TestDispatcherState L T := { self with delayed, background }
  let foregroundLen := state.foregroundLen backgroundOnly
  let backgroundLen := state.background.length
  if foregroundLen = 0 ∧ backgroundLen = 0 then
    let deprioritizedBackgroundLen := state.deprioritizedBackground.length
    if deprioritizedBackgroundLen = 0 then some (none, state)
    else
      (swapRemove state.deprioritizedBackground choice.index).map
        fun (runnable, deprioritizedBackground) =>
          (some runnable, { state with deprioritizedBackground, isMainThread := false })
  else if choice.mainThread then
    -- drawn with the ratio of foreground runnables
    if foregroundLen = 0 then none
    else
      (popForeground choice.index state.foreground).map fun (runnable, foreground) =>
        (some runnable, { state with foreground, isMainThread := true })
  else
    (swapRemove state.background choice.index).map fun (runnable, background) =>
      (some runnable, { state with background, isMainThread := false })

omit [DecidableEq L] in
def advanceClockToNextDelayed (self : TestDispatcherState L T) :
    Bool × TestDispatcherState L T :=
  match self.delayed with
  | (nextDueTime, _) :: _ => (true, { self with time := nextDueTime })
  | [] => (false, self)

end TestDispatcherState

/-! ## Draws and searches -/

namespace TestDispatcher

variable {L T : Type}

theorem swapRemove_perm {elements rest : List T} {index : Nat} {element : T}
    (removes : swapRemove elements index = some (element, rest)) :
    elements.Perm (element :: rest) := by
  rw [swapRemove, Option.map_eq_some_iff] at removes
  rcases removes with ⟨removed, isThere, same⟩
  rcases Prod.mk.inj same with ⟨rfl, rfl⟩
  rcases List.eq_nil_or_concat elements with rfl | ⟨front, last, rfl⟩
  · cases isThere
  · rw [List.concat_eq_append] at isThere ⊢
    rw [List.getLast?_concat, Option.getD_some]
    rcases Nat.lt_or_ge index front.length with inFront | atEnd
    · rw [List.set_append_left _ _ inFront, List.dropLast_concat]
      rw [List.getElem?_append_left inFront] at isThere
      rcases List.getElem?_eq_some_iff.mp isThere with ⟨bound, rfl⟩
      have split : front = front.take index ++ front[index] :: front.drop (index + 1) := by
        rw [List.getElem_cons_drop, List.take_append_drop]
      rw [List.set_eq_take_append_cons_drop, if_pos bound]
      calc
        (front ++ [last]).Perm (last :: front) := List.perm_append_singleton _ _
        _ = last :: (front.take index ++ front[index] :: front.drop (index + 1)) := by
          rw [← split]
        (last :: (front.take index ++ front[index] :: front.drop (index + 1))).Perm
            (last :: front[index] :: (front.take index ++ front.drop (index + 1))) :=
          List.perm_middle.cons _
        List.Perm _ (front[index] :: last :: (front.take index ++ front.drop (index + 1))) :=
          List.Perm.swap _ _ _
        List.Perm _ (front[index] :: (front.take index ++ last :: front.drop (index + 1))) :=
          List.perm_middle.symm.cons _
    · rw [List.getElem?_append_right atEnd] at isThere
      have isLast : index - front.length = 0 := by
        have bound := (List.getElem?_eq_some_iff.mp isThere).1
        exact Nat.lt_one_iff.mp bound
      rw [isLast] at isThere
      rw [List.set_append_right _ _ atEnd, isLast, ← Option.some.inj isThere]
      rw [List.set_cons_zero, List.dropLast_concat]
      exact List.perm_append_singleton _ _

/-- Every element can be removed. -/
theorem exists_swapRemove {elements : List T} (nonempty : elements ≠ []) :
    ∃ index taken, swapRemove elements index = some taken := by
  cases elements with
  | nil => exact absurd rfl nonempty
  | cons element elements => exact ⟨0, _, rfl⟩

theorem popForeground_perm {queues rest : List (Nat × List T)} {index : Nat} {runnable : T}
    (pops : popForeground index queues = some (runnable, rest)) :
    (queues.flatMap Prod.snd).Perm (runnable :: rest.flatMap Prod.snd) := by
  induction queues generalizing index rest with
  | nil => cases index <;> cases pops
  | cons queue queues ih =>
      cases index with
      | zero =>
          rcases queue with ⟨id, _ | ⟨first, queue⟩⟩
          · cases pops
          · rcases Prod.mk.inj (Option.some.inj pops) with ⟨rfl, rfl⟩
            rfl
      | succ index =>
          rw [popForeground, Option.map_eq_some_iff] at pops
          rcases pops with ⟨⟨popped, others⟩, pops, same⟩
          rcases Prod.mk.inj same with ⟨rfl, rfl⟩
          rw [List.flatMap_cons, List.flatMap_cons]
          exact ((ih pops).append_left queue.2).trans List.perm_middle

/-- Where there is a runnable, some queue can be drawn. -/
theorem exists_popForeground {queues : List (Nat × List T)}
    (nonempty : queues.flatMap Prod.snd ≠ []) :
    ∃ index taken, popForeground index queues = some taken := by
  induction queues with
  | nil => exact absurd rfl nonempty
  | cons queue queues ih =>
      rcases queue with ⟨id, _ | ⟨first, queue⟩⟩
      · rcases ih nonempty with ⟨index, taken, pops⟩
        exact ⟨index + 1, _, by rw [popForeground, pops]; rfl⟩
      · exact ⟨0, _, rfl⟩

theorem pushForeground_perm (id : Nat) (runnable : T) (queues : List (Nat × List T)) :
    ((pushForeground id runnable queues).flatMap Prod.snd).Perm
      (runnable :: queues.flatMap Prod.snd) := by
  induction queues with
  | nil => rfl
  | cons queue queues ih =>
      rw [pushForeground]
      split_ifs
      · rw [List.flatMap_cons, List.flatMap_cons, List.append_assoc]
        exact List.perm_middle
      · rw [List.flatMap_cons, List.flatMap_cons]
        exact (ih.append_left queue.2).trans List.perm_middle

theorem takeDue_spec (time : Nat) (delayed : List (Nat × T)) (background : List T) :
    ∃ due, delayed = due ++ (takeDue time delayed background).1 ∧
      (takeDue time delayed background).2 = background ++ due.map Prod.snd ∧
      (∀ entry ∈ due, entry.1 ≤ time) ∧
      ∀ entry ∈ (takeDue time delayed background).1.head?, time < entry.1 := by
  induction delayed generalizing background with
  | nil =>
      refine ⟨[], rfl, (List.append_nil _).symm, ?_, ?_⟩
      · exact List.forall_mem_nil _
      · intro entry none
        cases none
  | cons entry delayed ih =>
      rw [takeDue]
      by_cases late : entry.1 > time
      · rw [if_pos late]
        refine ⟨[], rfl, (List.append_nil _).symm, List.forall_mem_nil _, ?_⟩
        intro first isFirst
        rw [← Option.some.inj isFirst]
        exact late
      · rw [if_neg late]
        rcases ih (background ++ [entry.2]) with ⟨due, split, moved, early, rest⟩
        refine ⟨entry :: due, ?_, ?_, ?_, rest⟩
        · rw [List.cons_append, ← split]
        · rw [moved, List.append_assoc]
          rfl
        · exact List.forall_mem_cons.mpr ⟨not_lt.mp late, early⟩

/-- A key is inserted in order where the search has found its place. -/
theorem SearchResult.sorted {keys : List Nat} {key index : Nat}
    (found : SearchResult keys key index) (sorted : keys.Pairwise (· ≤ ·)) :
    (keys.take index ++ key :: keys.drop index).Pairwise (· ≤ ·) := by
  have split := List.take_append_drop index keys
  rw [← split] at sorted
  rcases List.pairwise_append.mp sorted with ⟨front, back, between⟩
  have around : (∀ before ∈ keys.take index, before ≤ key) ∧
      ∀ after ∈ keys.drop index, key ≤ after := by
    rw [SearchResult] at found
    split_ifs at found with isThere
    · rcases List.getElem?_eq_some_iff.mp found with ⟨bound, rfl⟩
      rw [List.drop_eq_getElem_cons bound] at back between ⊢
      constructor
      · intro before member
        exact between before member _ List.mem_cons_self
      · intro after member
        rcases List.mem_cons.mp member with rfl | behind
        · exact le_rfl
        · exact (List.pairwise_cons.mp back).1 after behind
    · exact ⟨fun before member => (found.2.1 before member).le,
        fun after member => (found.2.2 after member).le⟩
  apply List.pairwise_append.mpr
  refine ⟨front, List.pairwise_cons.mpr ⟨around.2, back⟩, ?_⟩
  intro before member after isAfter
  rcases List.mem_cons.mp isAfter with rfl | behind
  · exact around.1 before member
  · exact between before member after behind

theorem exists_searchResult {keys : List Nat} (sorted : keys.Pairwise (· ≤ ·)) (key : Nat) :
    ∃ index, SearchResult keys key index := by
  by_cases isThere : key ∈ keys
  · rcases List.mem_iff_getElem?.mp isThere with ⟨index, found⟩
    exact ⟨index, by rwa [SearchResult, if_pos isThere]⟩
  · induction keys with
    | nil =>
        refine ⟨0, ?_⟩
        rw [SearchResult, if_neg isThere]
        exact ⟨le_rfl, List.forall_mem_nil _, List.forall_mem_nil _⟩
    | cons first keys ih =>
        rcases List.pairwise_cons.mp sorted with ⟨least, sorted⟩
        rw [List.mem_cons, not_or] at isThere
        rcases ih sorted isThere.2 with ⟨index, found⟩
        rw [SearchResult, if_neg isThere.2] at found
        have absent : key ∉ first :: keys := by
          rw [List.mem_cons, not_or]
          exact isThere
        rcases lt_or_gt_of_ne isThere.1 with before | after
        · refine ⟨0, ?_⟩
          rw [SearchResult, if_neg absent]
          refine ⟨Nat.zero_le _, List.forall_mem_nil _, ?_⟩
          intro other member
          rcases List.mem_cons.mp member with rfl | behind
          · exact before
          · exact before.trans_le (least other behind)
        · refine ⟨index + 1, ?_⟩
          rw [SearchResult, if_neg absent]
          exact ⟨Nat.succ_le_succ found.1, List.forall_mem_cons.mpr ⟨after, found.2.1⟩, found.2.2⟩

end TestDispatcher

/-! ## What each operation does -/

namespace TestDispatcherState

open TestDispatcher

variable {L T : Type} [DecidableEq L]

omit [DecidableEq L] in
/-- The runnables that wait for nothing but their turn. -/
def pools (self : TestDispatcherState L T) : List T :=
  self.foreground.flatMap Prod.snd ++ self.background ++ self.deprioritizedBackground

omit [DecidableEq L] in
/-- The delayed runnables are sorted, and none of them is overdue. -/
structure Valid (state : TestDispatcherState L T) : Prop where
  sorted : (state.delayed.map Prod.fst).Pairwise (· ≤ ·)
  ahead : ∀ entry ∈ state.delayed, state.time ≤ entry.1

variable {state next : TestDispatcherState L T}

theorem dispatch_pools (state : TestDispatcherState L T) (runnable : T) (label : Option L) :
    (state.dispatch runnable label).pools.Perm (runnable :: state.pools) := by
  rw [dispatch]
  split_ifs
  · rw [pools, pools, ← List.append_assoc]
    exact List.perm_append_singleton _ _
  · rw [pools, pools, ← List.append_assoc, List.append_assoc, List.singleton_append]
    exact List.perm_middle

theorem dispatch_fields (state : TestDispatcherState L T) (runnable : T) (label : Option L) :
    (state.dispatch runnable label).time = state.time ∧
      (state.dispatch runnable label).delayed = state.delayed := by
  rw [dispatch]
  split_ifs
  · exact ⟨rfl, rfl⟩
  · exact ⟨rfl, rfl⟩

omit [DecidableEq L] in
theorem dispatchOnMainThread_pools (state : TestDispatcherState L T) (id : Nat) (runnable : T) :
    (state.dispatchOnMainThread id runnable).pools.Perm (runnable :: state.pools) :=
  ((pushForeground_perm id runnable state.foreground).append_right _).append_right _

omit [DecidableEq L] in
/-- One runnable more waits for its deadline, and the order is kept. -/
theorem dispatchAfter_spec {duration : Nat} {runnable : T} {choice : Choice}
    (delays : state.dispatchAfter duration runnable choice = some next) :
    next.time = state.time ∧ next.pools = state.pools ∧
      next.delayed.Perm ((state.time + duration, runnable) :: state.delayed) ∧
      ((state.delayed.map Prod.fst).Pairwise (· ≤ ·) →
        (next.delayed.map Prod.fst).Pairwise (· ≤ ·)) := by
  rw [dispatchAfter] at delays
  split_ifs at delays with found
  rw [← Option.some.inj delays]
  refine ⟨rfl, rfl, ?_, ?_⟩
  · dsimp only
    apply List.perm_middle.trans
    rw [List.take_append_drop]
  · intro sorted
    dsimp only
    rw [List.map_append, List.map_cons, List.map_take, List.map_drop]
    exact found.sorted sorted

omit [DecidableEq L] in
/-- What a tick does before and behind the runnable that it takes. -/
theorem tick_spec {backgroundOnly : Bool} {choice : Choice} {taken : Option T}
    (ticks : state.tick backgroundOnly choice = some (taken, next)) :
    next.time = state.time ∧
      (∃ due, state.delayed = due ++ next.delayed ∧
        (∀ entry ∈ due, entry.1 ≤ state.time) ∧
        (∀ entry ∈ next.delayed.head?, state.time < entry.1) ∧
        (state.pools ++ due.map Prod.snd).Perm (taken.toList ++ next.pools)) ∧
      (taken = none → backgroundOnly = false → next.pools = []) := by
  rw [tick] at ticks
  rcases takeDue_spec state.time state.delayed state.background with
    ⟨due, split, moved, early, late⟩
  generalize takeDue state.time state.delayed state.background = parts at *
  rcases parts with ⟨delayed, background⟩
  dsimp only at ticks split moved early late
  have before : (state.pools ++ due.map Prod.snd).Perm
      { state with delayed := delayed, background := background }.pools := by
    rw [pools, pools, moved, ← List.append_assoc, List.append_assoc _ state.deprioritizedBackground]
    exact (List.perm_append_comm.append_left _).trans (List.append_assoc .. ▸ List.Perm.refl _)
  split at ticks
  next idle =>
    split at ticks
    next idleToo =>
      rcases Prod.mk.inj (Option.some.inj ticks) with ⟨rfl, rfl⟩
      refine ⟨rfl, ⟨due, split, early, late, before⟩, ?_⟩
      rintro - rfl
      rw [foregroundLen, if_neg Bool.false_ne_true] at idle
      rw [pools, List.eq_nil_of_length_eq_zero idle.2, List.eq_nil_of_length_eq_zero idleToo,
        List.append_nil, List.append_nil, List.flatMap_eq_nil_iff]
      intro queue member
      exact List.eq_nil_of_length_eq_zero
        (List.sum_eq_zero_iff.mp idle.1 _ (List.mem_map_of_mem member))
    next =>
      rcases Option.map_eq_some_iff.mp ticks with ⟨⟨runnable, rest⟩, removes, same⟩
      rcases Prod.mk.inj same with ⟨rfl, rfl⟩
      refine ⟨rfl, ⟨due, split, early, late, before.trans ?_⟩, fun none => nomatch none⟩
      exact ((swapRemove_perm removes).append_left _).trans List.perm_middle
  next busy =>
    split at ticks
    · split at ticks
      · cases ticks
      · rcases Option.map_eq_some_iff.mp ticks with ⟨⟨runnable, rest⟩, pops, same⟩
        rcases Prod.mk.inj same with ⟨rfl, rfl⟩
        refine ⟨rfl, ⟨due, split, early, late, before.trans ?_⟩, fun none => nomatch none⟩
        exact ((popForeground_perm pops).append_right _).append_right _
    · rcases Option.map_eq_some_iff.mp ticks with ⟨⟨runnable, rest⟩, removes, same⟩
      rcases Prod.mk.inj same with ⟨rfl, rfl⟩
      refine ⟨rfl, ⟨due, split, early, late, before.trans ?_⟩, fun none => nomatch none⟩
      exact (((swapRemove_perm removes).append_left _).trans List.perm_middle).append_right _

omit [DecidableEq L] in
/-- Something can always be drawn. -/
theorem exists_tick (state : TestDispatcherState L T) (backgroundOnly : Bool) :
    ∃ choice result, state.tick backgroundOnly choice = some result := by
  simp only [tick]
  generalize takeDue state.time state.delayed state.background = parts
  rcases parts with ⟨delayed, background⟩
  dsimp only
  by_cases idle : foregroundLen { state with delayed, background } backgroundOnly = 0 ∧
      background.length = 0
  · simp only [if_pos idle]
    by_cases idleToo : state.deprioritizedBackground.length = 0
    · exact ⟨⟨false, 0⟩, _, if_pos idleToo⟩
    · rcases exists_swapRemove (List.ne_nil_of_length_pos (Nat.pos_of_ne_zero idleToo)) with
        ⟨index, taken, removes⟩
      refine ⟨⟨false, index⟩, ?_⟩
      simp only [if_neg idleToo, removes]
      exact ⟨_, rfl⟩
  · simp only [if_neg idle]
    by_cases empty : background.length = 0
    · have noneFound : foregroundLen { state with delayed, background } backgroundOnly ≠ 0 :=
        fun none => idle ⟨none, empty⟩
      have nonempty : state.foreground.flatMap Prod.snd ≠ [] := by
        intro isEmpty
        apply noneFound
        rw [foregroundLen]
        split_ifs
        · rfl
        · rw [List.sum_eq_zero_iff, List.forall_mem_map]
          intro queue member
          rw [List.flatMap_eq_nil_iff.mp isEmpty queue member]
          rfl
      rcases exists_popForeground nonempty with ⟨index, taken, pops⟩
      refine ⟨⟨true, index⟩, ?_⟩
      simp only [if_true, if_neg noneFound, pops]
      exact ⟨_, rfl⟩
    · rcases exists_swapRemove (List.ne_nil_of_length_pos (Nat.pos_of_ne_zero empty)) with
        ⟨index, taken, removes⟩
      refine ⟨⟨false, index⟩, ?_⟩
      simp only [Bool.false_eq_true, if_false, removes]
      exact ⟨_, rfl⟩

omit [DecidableEq L] in
theorem exists_dispatchAfter (sorted : (state.delayed.map Prod.fst).Pairwise (· ≤ ·))
    (duration : Nat) (runnable : T) :
    ∃ choice next, state.dispatchAfter duration runnable choice = some next := by
  rcases exists_searchResult sorted (state.time + duration) with ⟨index, found⟩
  exact ⟨⟨false, index⟩, _, if_pos found⟩

/-! ## The states of a dispatcher -/

omit [DecidableEq L] in
theorem Valid.dispatchAfter (valid : state.Valid) {duration : Nat} {runnable : T}
    {choice : Choice} (delays : state.dispatchAfter duration runnable choice = some next) :
    next.Valid := by
  rcases dispatchAfter_spec delays with ⟨time, _, entries, sorted⟩
  constructor
  · exact sorted valid.sorted
  · intro entry member
    rw [time]
    rcases List.mem_cons.mp (entries.mem_iff.mp member) with rfl | before
    · exact Nat.le_add_right _ _
    · exact valid.ahead entry before

omit [DecidableEq L] in
theorem Valid.tick (valid : state.Valid) {backgroundOnly : Bool} {choice : Choice}
    {taken : Option T} (ticks : state.tick backgroundOnly choice = some (taken, next)) :
    next.Valid := by
  rcases tick_spec ticks with ⟨time, ⟨due, split, _⟩, _⟩
  have sorted := valid.sorted
  rw [split, List.map_append, List.pairwise_append] at sorted
  constructor
  · exact sorted.2.1
  · intro entry member
    rw [time]
    apply valid.ahead
    rw [split]
    exact List.mem_append_right _ member

end TestDispatcherState

end Gpui
