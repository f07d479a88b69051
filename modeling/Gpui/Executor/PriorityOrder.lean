import Gpui.Executor.PriorityQueue

/-!
# The order within a priority

A vector of the priority queue is filled at its end, and a pop takes from that end too.
What has waited longest is taken only where nothing was sent after it.

A log keeps the items that were sent and those that were popped, each with the number of
its send; the queues do not look at the numbers.
-/

namespace Gpui

open Gpui.Library

namespace PriorityQueues

variable {T U α β : Type}

/-- The vector of a priority. -/
def queue (self : PriorityQueues T) : Priority → List T
  | .realtime _ => []
  | .high => self.highPriority
  | .medium => self.mediumPriority
  | .low => self.lowPriority

def withQueue (self : PriorityQueues T) (priority : Priority) (queue : List T) :
    PriorityQueues T :=
  match priority with
  | .realtime _ => self
  | .high => { self with highPriority := queue }
  | .medium => { self with mediumPriority := queue }
  | .low => { self with lowPriority := queue }

/-- The priority on whose vector the draws of `pop_inner` fall. -/
def chosen (self : PriorityQueues T) (draws : Draws) : Option (Option Priority) :=
  let high := weight .high self.highPriority
  let medium := weight .medium self.mediumPriority
  let low := weight .low self.lowPriority
  flipOr .high self.highPriority (high + medium + low) draws.high
    (fun _ => some .high) fun mass =>
  flipOr .medium self.mediumPriority mass draws.medium (fun _ => some .medium) fun mass =>
  flipOr .low self.lowPriority mass draws.low (fun _ => some .low) fun _ =>
  some none

/-- What a pop takes once a vector is chosen, and the queues after it. -/
def popFrom (self : PriorityQueues T) : Option Priority → Option T × PriorityQueues T
  | none => (none, self)
  | some priority =>
      ((self.queue priority).getLast?,
        self.withQueue priority (self.queue priority).dropLast)

theorem flipOr_map {priority : Priority} {queue : List T} {mass draw : Nat}
    {take : Option T × List T → α} {take' : Option T × List T → β} {next : Nat → Option α}
    {next' : Nat → Option β} (f : α → β)
    (takes : f (take (queue.getLast?, queue.dropLast)) = take' (queue.getLast?, queue.dropLast))
    (leaves : ∀ mass, (next mass).map f = next' mass) :
    (flipOr priority queue mass draw take next).map f =
      flipOr priority queue mass draw take' next' := by
  rw [flipOr, flipOr]
  by_cases isEmpty : queue.isEmpty
  · rw [if_pos isEmpty, if_pos isEmpty, leaves]
  · rw [if_neg isEmpty, if_neg isEmpty]
    cases randomRatio priority.probability mass draw with
    | none => rfl
    | some flip =>
        cases flip with
        | true => exact congrArg some takes
        | false => exact leaves _

/-- A pop takes the last item of the vector on which the draws fall. -/
theorem popInner_eq (self : PriorityQueues T) (draws : Draws) :
    self.popInner draws = (self.chosen draws).map self.popFrom := by
  rw [popInner, chosen]
  symm
  apply flipOr_map
  · rfl
  · intro mass
    apply flipOr_map
    · rfl
    · intro mass
      apply flipOr_map
      · rfl
      · exact fun _ => rfl

theorem withQueue_queue (self : PriorityQueues T) (priority : Priority) :
    self.withQueue priority (self.queue priority) = self := by
  cases priority <;> rfl

theorem popFrom_of_nil {self : PriorityQueues T} {priority : Priority}
    (empty : self.queue priority = []) : self.popFrom (some priority) = (none, self) := by
  have same := self.withQueue_queue priority
  rw [empty] at same
  rw [popFrom, empty, List.dropLast_nil, same, List.getLast?_nil]

theorem queue_withQueue (self : PriorityQueues T) {priority : Priority}
    (some : self.queue priority ≠ []) (queue : List T) (other : Priority) :
    (self.withQueue priority queue).queue other =
      if other = priority then queue else self.queue other := by
  cases priority with
  | realtime _ => exact absurd rfl some
  | high => cases other <;> rfl
  | medium => cases other <;> rfl
  | low => cases other <;> rfl

theorem queue_push {self after : PriorityQueues T} {item : T} {priority : Priority}
    (pushed : self.push item priority = some after) (other : Priority) :
    after.queue other =
      if other = priority then self.queue priority ++ [item] else self.queue other := by
  cases priority with
  | realtime _ => cases pushed
  | high =>
      rcases Option.some.inj pushed with rfl
      cases other <;> rfl
  | medium =>
      rcases Option.some.inj pushed with rfl
      cases other <;> rfl
  | low =>
      rcases Option.some.inj pushed with rfl
      cases other <;> rfl

theorem items_of_concat {self : PriorityQueues T} {priority : Priority} {front : List T}
    {item : T} (waiting : self.queue priority = front ++ [item]) :
    self.items = item ::ₘ (self.withQueue priority front).items := by
  have split : ((front ++ [item] : List T) : Multiset T) = item ::ₘ front := by
    rw [← Multiset.coe_add, Multiset.coe_singleton, add_comm, Multiset.singleton_add]
  cases priority with
  | realtime _ =>
      simp [queue] at waiting
  | high =>
      change self.highPriority = _ at waiting
      rw [items, waiting, split, Multiset.cons_add, Multiset.cons_add]
      rfl
  | medium =>
      change self.mediumPriority = _ at waiting
      rw [items, waiting, split, Multiset.add_cons, Multiset.cons_add]
      rfl
  | low =>
      change self.lowPriority = _ at waiting
      rw [items, waiting, split, Multiset.add_cons]
      rfl

theorem mem_items {self : PriorityQueues T} {item : T} :
    item ∈ self.items ↔ ∃ priority, item ∈ self.queue priority := by
  constructor
  · intro member
    rcases Multiset.mem_add.mp member with member | member
    · rcases Multiset.mem_add.mp member with member | member
      · exact ⟨.high, member⟩
      · exact ⟨.medium, member⟩
    · exact ⟨.low, member⟩
  · rintro ⟨priority, member⟩
    cases priority with
    | realtime _ => cases member
    | high => exact Multiset.mem_add.mpr (Or.inl (Multiset.mem_add.mpr (Or.inl member)))
    | medium => exact Multiset.mem_add.mpr (Or.inl (Multiset.mem_add.mpr (Or.inr member)))
    | low => exact Multiset.mem_add.mpr (Or.inr member)

/-! ## Items are not looked at -/

def map (f : T → U) (self : PriorityQueues T) : PriorityQueues U :=
  ⟨self.highPriority.map f, self.mediumPriority.map f, self.lowPriority.map f⟩

theorem push_map (f : T → U) (self : PriorityQueues T) (item : T) (priority : Priority) :
    (self.map f).push (f item) priority = (self.push item priority).map (map f) := by
  cases priority with
  | realtime _ => rfl
  | high => simp [push, map]
  | medium => simp [push, map]
  | low => simp [push, map]

theorem queue_map (f : T → U) (self : PriorityQueues T) (priority : Priority) :
    (self.map f).queue priority = (self.queue priority).map f := by
  cases priority <;> rfl

theorem withQueue_map (f : T → U) (self : PriorityQueues T) (priority : Priority)
    (queue : List T) :
    (self.map f).withQueue priority (queue.map f) = (self.withQueue priority queue).map f := by
  cases priority <;> rfl

theorem popFrom_map (f : T → U) (self : PriorityQueues T) (priority : Option Priority) :
    (self.map f).popFrom priority = Prod.map (Option.map f) (map f) (self.popFrom priority) := by
  cases priority with
  | none => rfl
  | some priority =>
      rw [popFrom, popFrom, queue_map, List.getLast?_map, ← List.map_dropLast, withQueue_map]
      rfl

theorem weight_map (f : T → U) (priority : Priority) (queue : List T) :
    weight priority (queue.map f) = weight priority queue := by
  rw [weight, weight, List.isEmpty_map]

theorem flipOr_map_queue (f : T → U) {priority : Priority} {queue : List T} {mass draw : Nat}
    (taken : α) (next : Nat → Option α) :
    flipOr priority (queue.map f) mass draw (fun _ => taken) next =
      flipOr priority queue mass draw (fun _ => taken) next := by
  rw [flipOr, flipOr, List.isEmpty_map]

theorem chosen_map (f : T → U) (self : PriorityQueues T) (draws : Draws) :
    (self.map f).chosen draws = self.chosen draws := by
  simp only [chosen, map, weight_map, flipOr_map_queue]

theorem popInner_map (f : T → U) (self : PriorityQueues T) (draws : Draws) :
    (self.map f).popInner draws =
      (self.popInner draws).map (Prod.map (Option.map f) (map f)) := by
  rw [popInner_eq, popInner_eq, chosen_map, Option.map_map]
  exact congrArg (Option.map · _) (funext (popFrom_map f self))

end PriorityQueues

/-- An item with the number of its send. -/
structure Sent (T : Type) where
  number : Nat
  priority : Priority
  item : T
deriving DecidableEq, Repr

structure QueueLog (T : Type) where
  queues : PriorityQueues (Sent T)
  sent : List (Sent T)
  popped : List (Sent T)
deriving DecidableEq, Repr

namespace QueueLog

variable {T : Type}

def empty : QueueLog T :=
  ⟨.empty, [], []⟩

def send (self : QueueLog T) (priority : Priority) (item : T) : QueueLog T :=
  let sent := ⟨self.sent.length, priority, item⟩
  match self.queues.push sent priority with
  | none => self
  | some queues => { self with queues, sent := self.sent ++ [sent] }

def pop (self : QueueLog T) (draws : Draws) : Option (Option T × QueueLog T) := do
  let (taken, queues) ← self.queues.popInner draws
  some (taken.map Sent.item, { self with queues, popped := self.popped ++ taken.toList })

def step [DecidableEq T] (log : QueueLog T) : QueueCall T → Option (QueueLog T)
  | .send priority item => some (log.send priority item)
  | .pop draws popped => do
      let (item, after) ← log.pop draws
      if item = popped then some after else none

/-- Without its numbers the log does what the queues do. -/
theorem step_queues [DecidableEq T] (log : QueueLog T) (call : QueueCall T) :
    (log.step call).map (fun log => log.queues.map Sent.item) =
      QueueCall.step (log.queues.map Sent.item) call := by
  cases call with
  | send priority item =>
      have pushes := log.queues.push_map Sent.item ⟨log.sent.length, priority, item⟩ priority
      rw [QueueCall.step, pushes, step, send]
      cases log.queues.push ⟨log.sent.length, priority, item⟩ priority with
      | none => rfl
      | some queues => rfl
  | pop draws popped =>
      rw [QueueCall.step, log.queues.popInner_map, step, pop]
      cases log.queues.popInner draws with
      | none => rfl
      | some taken =>
          change Option.map _ (if taken.1.map Sent.item = popped then some _ else none) =
            if taken.1.map Sent.item = popped then some _ else none
          by_cases same : taken.1.map Sent.item = popped
          · rw [if_pos same, if_pos same]
            rfl
          · rw [if_neg same, if_neg same]
            rfl

/-- Of two items of one priority, the one sent later is popped later. -/
def InOrder (log : QueueLog T) : Prop :=
  ∀ first ∈ log.sent, ∀ second ∈ log.popped, first.number < second.number →
    first.priority = second.priority → Before first second log.popped

/-- The vector on which the draws of a pop fall has one item at most. -/
def OneWaiting (log : QueueLog T) : QueueCall T → Prop
  | .send _ _ => True
  | .pop draws _ => ∀ priority, log.queues.chosen draws = some (some priority) →
      (log.queues.queue priority).length ≤ 1

/-- What a step can do. -/
inductive Stepped (log : QueueLog T) : QueueCall T → QueueLog T → Prop where
  /-- A send that panics, or a pop that takes nothing. -/
  | stays {call : QueueCall T} (one : log.OneWaiting call) : Stepped log call log
  | sends {priority : Priority} {item : T} {queues : PriorityQueues (Sent T)}
      (pushed : log.queues.push ⟨log.sent.length, priority, item⟩ priority = some queues) :
      Stepped log (.send priority item)
        { log with queues, sent := log.sent ++ [⟨log.sent.length, priority, item⟩] }
  | takes {draws : Draws} {popped : Option T} {priority : Priority} {front : List (Sent T)}
      {taken : Sent T} (chosen : log.queues.chosen draws = some (some priority))
      (waiting : log.queues.queue priority = front ++ [taken]) :
      Stepped log (.pop draws popped)
        { log with
          queues := log.queues.withQueue priority front
          popped := log.popped ++ [taken] }

theorem stepped_of_step [DecidableEq T] {log next : QueueLog T} {call : QueueCall T}
    (steps : log.step call = some next) : Stepped log call next := by
  cases call with
  | send priority item =>
      rcases Option.some.inj steps with rfl
      rw [send]
      cases pushed : log.queues.push ⟨log.sent.length, priority, item⟩ priority with
      | none => exact .stays trivial
      | some queues => exact .sends pushed
  | pop draws popped =>
      rw [step, pop, PriorityQueues.popInner_eq] at steps
      cases chosen : log.queues.chosen draws with
      | none =>
          rw [chosen] at steps
          cases steps
      | some choice =>
          rw [chosen] at steps
          rcases Option.ite_none_right_eq_some.mp steps with ⟨-, same⟩
          have after : next = { log with
              queues := (log.queues.popFrom choice).2
              popped := log.popped ++ (log.queues.popFrom choice).1.toList } :=
            (Option.some.inj same).symm
          rw [after]
          cases choice with
          | none =>
              rw [PriorityQueues.popFrom, Option.toList_none, List.append_nil]
              apply Stepped.stays
              intro priority falls
              rw [chosen] at falls
              cases falls
          | some priority =>
              rcases List.eq_nil_or_concat (log.queues.queue priority) with
                nothing | ⟨front, taken, waiting⟩
              · rw [PriorityQueues.popFrom_of_nil nothing, Option.toList_none, List.append_nil]
                apply Stepped.stays
                intro other falls
                rw [chosen] at falls
                rcases Option.some.inj (Option.some.inj falls) with rfl
                rw [nothing]
                exact Nat.zero_le 1
              · rw [List.concat_eq_append] at waiting
                rw [PriorityQueues.popFrom, waiting, List.getLast?_concat, List.dropLast_concat,
                  Option.toList_some]
                exact .takes chosen waiting

/-- The log and the queues fit each other. -/
structure Tracked (log : QueueLog T) : Prop where
  numbered : log.sent.map Sent.number = List.range log.sent.length
  conserved : (log.popped : Multiset (Sent T)) + log.queues.items = log.sent
  filed : ∀ priority, ∀ entry ∈ log.queues.queue priority, entry.priority = priority
  ordered : ∀ priority, (log.queues.queue priority).Pairwise (·.number < ·.number)

theorem tracked_empty : Tracked (empty : QueueLog T) where
  numbered := rfl
  conserved := rfl
  filed := by
    intro priority entry member
    cases priority <;> cases member
  ordered := by
    intro priority
    cases priority <;> exact List.Pairwise.nil

namespace Tracked

variable {log : QueueLog T} (tracked : Tracked log)

include tracked

theorem number_lt {entry : Sent T} (member : entry ∈ log.sent) :
    entry.number < log.sent.length := by
  have number := List.mem_map_of_mem (f := Sent.number) member
  rwa [tracked.numbered, List.mem_range] at number

theorem sent_nodup : log.sent.Nodup := by
  apply List.Nodup.of_map Sent.number
  rw [tracked.numbered]
  exact List.nodup_range

theorem mem_sent {entry : Sent T} :
    entry ∈ log.sent ↔ entry ∈ log.popped ∨ ∃ priority, entry ∈ log.queues.queue priority := by
  rw [← Multiset.mem_coe, ← tracked.conserved, Multiset.mem_add, Multiset.mem_coe,
    PriorityQueues.mem_items]

/-- What waits has not been popped. -/
theorem notMem_popped {entry : Sent T} {priority : Priority}
    (waiting : entry ∈ log.queues.queue priority) : entry ∉ log.popped := by
  have nodup : ((log.popped : Multiset (Sent T)) + log.queues.items).Nodup := by
    rw [tracked.conserved]
    exact tracked.sent_nodup
  have disjoint := (Multiset.nodup_add.mp nodup).2.2
  intro popped
  exact Multiset.disjoint_left.mp disjoint popped
    (PriorityQueues.mem_items.2 ⟨priority, waiting⟩)

theorem step {next : QueueLog T} {call : QueueCall T} (stepped : Stepped log call next) :
    Tracked next := by
  cases stepped with
  | stays _ => exact tracked
  | @sends priority item queues pushed =>
      constructor
      · rw [List.map_append, tracked.numbered, List.length_append, List.length_singleton,
          List.range_succ]
        rfl
      · rw [PriorityQueues.items_push pushed, Multiset.add_cons, tracked.conserved,
          ← Multiset.coe_add, Multiset.coe_singleton, add_comm, Multiset.singleton_add]
      · intro other entry member
        rw [PriorityQueues.queue_push pushed] at member
        by_cases same : other = priority
        · rw [if_pos same] at member
          rcases mem_snoc.1 member with old | rfl
          · rw [same]
            exact tracked.filed priority entry old
          · exact same.symm
        · rw [if_neg same] at member
          exact tracked.filed other entry member
      · intro other
        rw [PriorityQueues.queue_push pushed]
        by_cases same : other = priority
        · rw [if_pos same, List.pairwise_append]
          refine ⟨tracked.ordered priority, List.pairwise_singleton _ _, ?_⟩
          intro entry old new isNew
          rw [List.mem_singleton.mp isNew]
          exact tracked.number_lt (tracked.mem_sent.2 (Or.inr ⟨priority, old⟩))
        · rw [if_neg same]
          exact tracked.ordered other
  | @takes draws popped priority front taken chosen waiting =>
      have some : log.queues.queue priority ≠ [] := by
        rw [waiting]
        exact List.append_ne_nil_of_right_ne_nil _ (List.cons_ne_nil _ _)
      have shorter : ∀ other, List.Sublist ((log.queues.withQueue priority front).queue other)
          (log.queues.queue other) := by
        intro other
        rw [PriorityQueues.queue_withQueue _ some]
        by_cases same : other = priority
        · rw [if_pos same, same, waiting]
          exact List.sublist_append_left _ _
        · rw [if_neg same]
      constructor
      · exact tracked.numbered
      · rw [← tracked.conserved, PriorityQueues.items_of_concat waiting, Multiset.add_cons,
          ← Multiset.coe_add, Multiset.coe_singleton, add_right_comm,
          add_comm _ ({taken} : Multiset (Sent T)), Multiset.singleton_add]
      · intro other entry member
        exact tracked.filed other entry ((shorter other).subset member)
      · intro other
        exact (tracked.ordered other).sublist (shorter other)

/-- A step that keeps the order finds the items in order. -/
theorem inOrder_of_step {next : QueueLog T} {call : QueueCall T}
    (stepped : Stepped log call next) (inOrder : next.InOrder) : log.InOrder := by
  cases stepped with
  | stays _ => exact inOrder
  | sends pushed =>
      intro first isSent second
      exact inOrder first (List.mem_append_left _ isSent) second
  | @takes draws popped priority front taken chosen waiting =>
      intro first isSent second isPopped less same
      have before := inOrder first isSent second (List.mem_append_left _ isPopped) less same
      rcases before_snoc_iff.1 before with before | ⟨rfl, -⟩
      · exact before
      · have isWaiting : taken ∈ log.queues.queue priority := by
          rw [waiting]
          exact List.mem_append_right _ (List.mem_singleton_self taken)
        exact absurd isPopped (tracked.notMem_popped isWaiting)

/-- A pop that keeps the order takes an item that waits alone. -/
theorem oneWaiting_of_inOrder {next : QueueLog T} {call : QueueCall T}
    (stepped : Stepped log call next) (inOrder : next.InOrder) : log.OneWaiting call := by
  cases stepped with
  | stays one => exact one
  | sends pushed => trivial
  | @takes draws popped priority front taken chosen waiting =>
      intro other falls
      rw [chosen] at falls
      rcases Option.some.inj (Option.some.inj falls) with rfl
      have ordered := tracked.ordered priority
      rw [waiting, List.pairwise_append] at ordered
      cases front with
      | nil => rw [waiting, List.nil_append, List.length_singleton]
      | cons first rest =>
          -- The first of the vector was sent before the last and still waits.
          have firstWaits : first ∈ log.queues.queue priority := by
            rw [waiting]
            exact List.mem_cons_self
          have takenWaits : taken ∈ log.queues.queue priority := by
            rw [waiting]
            exact List.mem_append_right _ (List.mem_singleton_self taken)
          have less := ordered.2.2 first List.mem_cons_self taken (List.mem_singleton_self taken)
          have same : first.priority = taken.priority :=
            (tracked.filed priority first firstWaits).trans
              (tracked.filed priority taken takenWaits).symm
          have before := inOrder first (tracked.mem_sent.2 (Or.inr ⟨priority, firstWaits⟩)) taken
            (List.mem_append_right _ (List.mem_singleton_self taken)) less same
          rcases mem_snoc.1 before.mem.1 with isPopped | rfl
          · exact absurd isPopped (tracked.notMem_popped firstWaits)
          · exact absurd less (lt_irrefl _)

/-- A pop of an item that waits alone keeps the order. -/
theorem inOrder_step {next : QueueLog T} {call : QueueCall T} (stepped : Stepped log call next)
    (one : log.OneWaiting call) (inOrder : log.InOrder) : next.InOrder := by
  cases stepped with
  | stays _ => exact inOrder
  | sends pushed =>
      intro first isSent second isPopped less same
      have secondSent := tracked.mem_sent.2 (Or.inl isPopped)
      rcases mem_snoc.1 isSent with isSent | rfl
      · exact inOrder first isSent second isPopped less same
      · exact absurd (tracked.number_lt secondSent) (not_lt_of_gt less)
  | @takes draws popped priority front taken chosen waiting =>
      intro first isSent second isPopped less same
      rcases mem_snoc.1 isPopped with isPopped | rfl
      · exact (inOrder first isSent second isPopped less same).append _
      · rw [before_snoc_iff]
        refine Or.inr ⟨rfl, ?_⟩
        rcases tracked.mem_sent.1 isSent with isPopped | ⟨other, isWaiting⟩
        · exact isPopped
        · -- The first would be in the vector that has only the second.
          have takenWaits : taken ∈ log.queues.queue priority := by
            rw [waiting]
            exact List.mem_append_right _ (List.mem_singleton_self taken)
          have sameQueue : other = priority := by
            rw [← tracked.filed other first isWaiting, same]
            exact tracked.filed priority taken takenWaits
          have alone := one priority chosen
          rw [waiting, List.length_append, List.length_singleton] at alone
          have nothing : front = [] := List.length_eq_zero_iff.mp (Nat.le_zero.mp
            (Nat.le_of_succ_le_succ alone))
          rw [sameQueue, waiting, nothing, List.nil_append, List.mem_singleton] at isWaiting
          rw [isWaiting] at less
          exact absurd less (lt_irrefl _)

end Tracked

variable [DecidableEq T]

theorem tracked_of_run {allowed : QueueLog T → QueueCall T → Prop} {calls : List (QueueCall T)}
    {last : QueueLog T} (run : Run step allowed .empty calls last) : Tracked last := by
  apply run.invariant fun _ log => Tracked log
  · exact tracked_empty
  · exact fun tracked _ steps => tracked.step (stepped_of_step steps)

/-- Items of one priority are popped in the order in which they were sent exactly if every
pop falls on a vector with a single item. -/
theorem run_inOrder_iff {calls : List (QueueCall T)} {last : QueueLog T}
    (run : Run step (fun _ _ => True) .empty calls last) :
    last.InOrder ↔ Run step OneWaiting .empty calls last := by
  constructor
  · intro inOrder
    induction run with
    | nil => exact .nil
    | snoc before _ steps ih =>
        have tracked := tracked_of_run before
        have stepped := stepped_of_step steps
        exact (ih (tracked.inOrder_of_step stepped inOrder)).snoc
          (tracked.oneWaiting_of_inOrder stepped inOrder) steps
  · intro run
    have both : Tracked last ∧ last.InOrder := by
      apply run.invariant fun _ log => Tracked log ∧ log.InOrder
      · refine ⟨tracked_empty, ?_⟩
        intro first isSent
        cases isSent
      · rintro _ _ _ _ ⟨tracked, inOrder⟩ one steps
        have stepped := stepped_of_step steps
        exact ⟨tracked.step stepped, tracked.inOrder_step stepped one inOrder⟩
    exact both.2

/-- The second item is sent once the first is gone. -/
theorem run_inOrder_iff_alone :
    (⟨.empty, [⟨0, .medium, 1⟩, ⟨1, .medium, 2⟩], [⟨0, .medium, 1⟩, ⟨1, .medium, 2⟩]⟩ :
      QueueLog Nat).InOrder := by
  have run : Run step (fun _ _ => True) .empty
      [.send .medium 1, .pop ⟨0, 0, 0⟩ (some 1), .send .medium 2, .pop ⟨0, 0, 0⟩ (some 2)]
      ⟨.empty, [⟨0, .medium, 1⟩, ⟨1, .medium, 2⟩], [⟨0, .medium, 1⟩, ⟨1, .medium, 2⟩]⟩ :=
    Run.of_foldlM (by decide)
  have first : (⟨⟨[], [⟨0, .medium, 1⟩], []⟩, [⟨0, .medium, 1⟩], []⟩ : QueueLog Nat).OneWaiting
      (.pop ⟨0, 0, 0⟩ (some 1)) := by
    intro priority _
    cases priority <;> simp [PriorityQueues.queue]
  have second : (⟨⟨[], [⟨1, .medium, 2⟩], []⟩, [⟨0, .medium, 1⟩, ⟨1, .medium, 2⟩],
      [⟨0, .medium, 1⟩]⟩ : QueueLog Nat).OneWaiting (.pop ⟨0, 0, 0⟩ (some 2)) := by
    intro priority _
    cases priority <;> simp [PriorityQueues.queue]
  have sends : ∀ (log : QueueLog Nat) (item : Nat), log.OneWaiting (.send .medium item) :=
    fun _ _ => trivial
  exact (run_inOrder_iff run).mpr ((((Run.nil.snoc (sends _ 1) rfl).snoc first rfl).snoc
    (sends _ 2) rfl).snoc second rfl)

/-- Of two items that wait together, the one sent last is popped first. -/
theorem not_run_inOrder :
    ¬ ∀ (calls : List (QueueCall Nat)) (last : QueueLog Nat),
      Run step (fun _ _ => True) .empty calls last → last.InOrder := by
  intro inOrder
  have run : Run step (fun _ _ => True) (.empty : QueueLog Nat)
      [.send .medium 1, .send .medium 2, .pop ⟨0, 0, 0⟩ (some 2)]
      ⟨⟨[], [⟨0, .medium, 1⟩], []⟩, [⟨0, .medium, 1⟩, ⟨1, .medium, 2⟩], [⟨1, .medium, 2⟩]⟩ :=
    Run.of_foldlM (by decide)
  have before := inOrder _ _ run ⟨0, .medium, 1⟩ (by decide) ⟨1, .medium, 2⟩ (by decide)
    Nat.zero_lt_one rfl
  exact absurd before.mem.1 (by decide)

end QueueLog

end Gpui
