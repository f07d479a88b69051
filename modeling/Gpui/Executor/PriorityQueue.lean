import Gpui.Library.Transition

/-!
# The priority queue

Tasks wait in one vector for each priority that is scheduled by chance.  A pop draws
among the vectors that are not empty, in proportion to their weights: each vector in turn
takes the pop with the share its weight has in the mass that is left.

A panic (`unreachable!`, or a ratio that is no probability) yields `none`.
-/

namespace Gpui

open Gpui.Library

inductive RealtimePriority where
  | audio
  | other
deriving DecidableEq, Repr

inductive Priority where
  | realtime (priority : RealtimePriority)
  | high
  | medium
  | low
deriving DecidableEq, Repr

def Priority.probability : Priority → Nat
  | realtime _ => 0
  | high => 60
  | medium => 30
  | low => 10

/-- `Rng::random_ratio`.  The draw is taken among the numbers below the denominator. -/
def randomRatio (numerator denominator draw : Nat) : Option Bool :=
  if denominator = 0 ∨ denominator < numerator then none
  else some (draw % denominator < numerator)

theorem randomRatio_isSome {numerator denominator : Nat} (positive : 0 < denominator)
    (ratio : numerator ≤ denominator) (draw : Nat) :
    ∃ flip, randomRatio numerator denominator draw = some flip := by
  rw [randomRatio, if_neg]
  · exact ⟨_, rfl⟩
  · rintro (zero | less)
    · exact positive.ne' zero
    · exact absurd ratio (not_le_of_gt less)

/-- The whole mass is always hit. -/
theorem randomRatio_self {numerator : Nat} (positive : 0 < numerator) (draw : Nat) :
    randomRatio numerator numerator draw = some true := by
  rw [randomRatio, if_neg]
  · exact congrArg some (decide_eq_true (Nat.mod_lt draw positive))
  · rintro (zero | less)
    · exact positive.ne' zero
    · exact lt_irrefl _ less

structure PriorityQueues (T : Type) where
  highPriority : List T
  mediumPriority : List T
  lowPriority : List T
deriving DecidableEq, Repr

/-- The numbers a pop may draw. -/
structure Draws where
  high : Nat
  medium : Nat
  low : Nat
deriving DecidableEq, Repr

namespace PriorityQueues

variable {T : Type}

def empty : PriorityQueues T :=
  ⟨[], [], []⟩

def isEmpty (self : PriorityQueues T) : Bool :=
  self.highPriority.isEmpty && self.mediumPriority.isEmpty && self.lowPriority.isEmpty

/-- Add an item at the end of the vector of its priority. -/
def push (self : PriorityQueues T) (item : T) : Priority → Option (PriorityQueues T)
  | .realtime _ => none
  | .high => some { self with highPriority := self.highPriority ++ [item] }
  | .medium => some { self with mediumPriority := self.mediumPriority ++ [item] }
  | .low => some { self with lowPriority := self.lowPriority ++ [item] }

/-- The probability of a priority, if its vector has items. -/
def weight (priority : Priority) (queue : List T) : Nat :=
  priority.probability * (!queue.isEmpty).toNat

/-- What a vector that is not empty does in `pop_inner`: take the pop with its share of
the mass, or else leave the rest of the mass to the next vector. -/
def flipOr {α : Type} (priority : Priority) (queue : List T) (mass draw : Nat)
    (take : Option T × List T → α) (next : Nat → Option α) : Option α :=
  if queue.isEmpty then next mass
  else do
    let flip ← randomRatio priority.probability mass draw
    if flip then some (take (queue.getLast?, queue.dropLast))
    else next (mass - priority.probability)

/-- `pop_inner`, once the lock is taken: what is popped, and the queues after it. -/
def popInner (self : PriorityQueues T) (draws : Draws) :
    Option (Option T × PriorityQueues T) :=
  let high := weight .high self.highPriority
  let medium := weight .medium self.mediumPriority
  let low := weight .low self.lowPriority
  flipOr .high self.highPriority (high + medium + low) draws.high
    (fun (item, highPriority) => (item, { self with highPriority })) fun mass =>
  flipOr .medium self.mediumPriority mass draws.medium
    (fun (item, mediumPriority) => (item, { self with mediumPriority })) fun mass =>
  flipOr .low self.lowPriority mass draws.low
    (fun (item, lowPriority) => (item, { self with lowPriority })) fun _ =>
  some (none, self)

/-! ## Popping -/

/-- All items. -/
def items (self : PriorityQueues T) : Multiset T :=
  self.highPriority + self.mediumPriority + self.lowPriority

theorem items_push {self after : PriorityQueues T} {item : T} {priority : Priority}
    (pushed : self.push item priority = some after) : after.items = item ::ₘ self.items := by
  have appended : ∀ queue : List T, ((queue ++ [item] : List T) : Multiset T) = item ::ₘ queue := by
    intro queue
    rw [← Multiset.coe_add, Multiset.coe_singleton, add_comm, Multiset.singleton_add]
  cases priority with
  | realtime priority => cases pushed
  | high =>
      rcases Option.some.inj pushed with rfl
      simp only [items, appended, Multiset.cons_add]
  | medium =>
      rcases Option.some.inj pushed with rfl
      simp only [items, appended, Multiset.add_cons, Multiset.cons_add]
  | low =>
      rcases Option.some.inj pushed with rfl
      simp only [items, appended, Multiset.add_cons]

/-- Taking the last item of a vector leaves the others. -/
theorem coe_getLast?_dropLast {queue : List T} (nonempty : queue ≠ []) :
    ∃ item, queue.getLast? = some item ∧ (queue : Multiset T) = item ::ₘ queue.dropLast := by
  rcases List.eq_nil_or_concat queue with rfl | ⟨front, item, rfl⟩
  · exact absurd rfl nonempty
  · refine ⟨item, by simp, ?_⟩
    rw [List.concat_eq_append, List.dropLast_concat, ← Multiset.coe_add, Multiset.coe_singleton,
      add_comm, Multiset.singleton_add]

theorem weight_nil (priority : Priority) : weight priority ([] : List T) = 0 :=
  Nat.mul_zero _

theorem weight_of_ne_nil (priority : Priority) {queue : List T} (nonempty : queue ≠ []) :
    weight priority queue = priority.probability := by
  cases queue with
  | nil => exact absurd rfl nonempty
  | cons item queue => exact Nat.mul_one _

/-- A vector takes the pop, or leaves it to the others and a mass that is theirs; the last
vector with items cannot leave it. -/
theorem flipOr_spec {α : Type} (priority : Priority) (positive : 0 < priority.probability)
    (queue : List T) (rest draw : Nat) (take : Option T × List T → α) (next : Nat → Option α) :
    (queue ≠ [] ∧ flipOr priority queue (weight priority queue + rest) draw take next =
        some (take (queue.getLast?, queue.dropLast))) ∨
      ((queue = [] ∨ rest ≠ 0) ∧
        flipOr priority queue (weight priority queue + rest) draw take next = next rest) := by
  by_cases nonempty : queue = []
  · rw [nonempty, weight_nil, zero_add]
    exact Or.inr ⟨Or.inl rfl, rfl⟩
  · have isEmpty : ¬ queue.isEmpty = true := by
      rwa [List.isEmpty_iff]
    have mass : weight priority queue + rest = priority.probability + rest := by
      rw [weight_of_ne_nil priority nonempty]
    rcases randomRatio_isSome (Nat.add_pos_left positive rest)
        (Nat.le_add_right priority.probability rest) draw with ⟨flip, flips⟩
    have chosen : flipOr priority queue (weight priority queue + rest) draw take next =
        if flip then some (take (queue.getLast?, queue.dropLast)) else next rest := by
      rw [flipOr, if_neg isEmpty, mass, flips, Nat.add_sub_cancel_left]
      rfl
    cases flip with
    | true => exact Or.inl ⟨nonempty, chosen⟩
    | false =>
        have more : rest ≠ 0 := by
          intro none
          rw [none, Nat.add_zero, randomRatio_self positive] at flips
          cases flips
        exact Or.inr ⟨Or.inr more, chosen⟩

/-- What a pop takes is gone from the queues; a pop that takes nothing found nothing. -/
def Popped (self : PriorityQueues T) : Option T × PriorityQueues T → Prop
  | (some item, after) => self.items = item ::ₘ after.items
  | (none, after) => self.isEmpty = true ∧ after = self

theorem popInner_spec (self : PriorityQueues T) (draws : Draws) :
    ∃ popped, self.popInner draws = some popped ∧ self.Popped popped := by
  rcases self with ⟨high, medium, low⟩
  rw [popInner, add_assoc]
  rcases flipOr_spec .high (by decide) high _ draws.high _ _ with
    ⟨nonempty, takes⟩ | ⟨left, leaves⟩
  · rcases coe_getLast?_dropLast nonempty with ⟨item, last, split⟩
    refine ⟨_, takes, ?_⟩
    rw [last, Popped, items, items, split, Multiset.cons_add, Multiset.cons_add]
  · rw [leaves]
    rcases flipOr_spec .medium (by decide) medium _ draws.medium _ _ with
      ⟨nonempty, takes⟩ | ⟨left', leaves'⟩
    · rcases coe_getLast?_dropLast nonempty with ⟨item, last, split⟩
      refine ⟨_, takes, ?_⟩
      rw [last, Popped, items, items, split, Multiset.add_cons, Multiset.cons_add]
    · rw [leaves', ← Nat.add_zero (weight .low low)]
      rcases flipOr_spec .low (by decide) low 0 draws.low _ _ with
        ⟨nonempty, takes⟩ | ⟨left'', leaves''⟩
      · rcases coe_getLast?_dropLast nonempty with ⟨item, last, split⟩
        refine ⟨_, takes, ?_⟩
        rw [last, Popped, items, items, split, Multiset.add_cons]
      · -- No vector has items: each was left because it was empty.
        have lowNil : low = [] := left''.resolve_right fun nonzero => nonzero rfl
        have mediumNil : medium = [] := by
          apply left'.resolve_right
          rw [lowNil, weight_nil]
          exact fun nonzero => nonzero rfl
        have highNil : high = [] := by
          apply left.resolve_right
          rw [lowNil, mediumNil, weight_nil, weight_nil]
          exact fun nonzero => nonzero rfl
        subst lowNil mediumNil highNil
        exact ⟨_, leaves'', rfl, rfl⟩

/-- A pop takes nothing exactly if there is nothing. -/
theorem Popped.eq_none_iff {queues after : PriorityQueues T} {item : Option T}
    (popped : queues.Popped (item, after)) : item = none ↔ queues.isEmpty = true := by
  cases item with
  | none => exact ⟨fun _ => popped.1, fun _ => rfl⟩
  | some item =>
      constructor
      · rintro ⟨⟩
      · intro empty
        rcases queues with ⟨high, medium, low⟩
        have split : PriorityQueues.items ⟨high, medium, low⟩ = item ::ₘ after.items := popped
        simp only [isEmpty, Bool.and_eq_true, List.isEmpty_iff] at empty
        rcases empty with ⟨⟨rfl, rfl⟩, rfl⟩
        exact absurd split.symm (Multiset.cons_ne_zero)

theorem popInner_isSome {self : PriorityQueues T} (nonempty : self.isEmpty = false)
    (draws : Draws) : ∃ item after, self.popInner draws = some (some item, after) := by
  rcases self.popInner_spec draws with ⟨⟨popped, after⟩, pops, spec⟩
  cases popped with
  | some item => exact ⟨item, after, pops⟩
  | none => cases nonempty.symm.trans (spec.eq_none_iff.mp rfl)

/-! ## Sequences of sends and pops -/

end PriorityQueues

/-- A send, or a pop with what it popped.  A send with a realtime priority panics and
adds nothing. -/
inductive QueueCall (T : Type) where
  | send (priority : Priority) (item : T)
  | pop (draws : Draws) (popped : Option T)

namespace QueueCall

variable {T : Type}

def step [DecidableEq T] (queues : PriorityQueues T) : QueueCall T → Option (PriorityQueues T)
  | send priority item => some ((queues.push item priority).getD queues)
  | pop draws popped => do
      let (item, after) ← queues.popInner draws
      if item = popped then some after else none

def sent : QueueCall T → Option T
  | send (.realtime _) _ => none
  | send _ item => some item
  | pop _ _ => none

def popped : QueueCall T → Option T
  | send _ _ => none
  | pop _ item => item

/-- What has been popped and what is queued is what has been sent. -/
def Conserved (calls : List (QueueCall T)) (queues : PriorityQueues T) : Prop :=
  (calls.filterMap popped : Multiset T) + queues.items = calls.filterMap sent

theorem coe_filterMap_snoc {α β : Type} (f : α → Option β) (items : List α) (item : α) :
    (((items ++ [item]).filterMap f : List β) : Multiset β) =
      (items.filterMap f : Multiset β) + (f item).toList := by
  rw [List.filterMap_append, ← Multiset.coe_add, List.filterMap_cons]
  cases f item with
  | none => rfl
  | some _ => rfl

theorem conserved_step [DecidableEq T] {calls : List (QueueCall T)}
    {queues next : PriorityQueues T} {call : QueueCall T} (conserved : Conserved calls queues)
    (steps : step queues call = some next) : Conserved (calls ++ [call]) next := by
  rw [Conserved, coe_filterMap_snoc, coe_filterMap_snoc, ← conserved]
  cases call with
  | send priority item =>
      rcases Option.some.inj steps with rfl
      cases pushed : queues.push item priority with
      | none =>
          cases priority with
          | realtime priority => simp [popped, sent]
          | high => cases pushed
          | medium => cases pushed
          | low => cases pushed
      | some after =>
          have sends : sent (.send priority item) = some item := by
            cases priority with
            | realtime priority => cases pushed
            | high => rfl
            | medium => rfl
            | low => rfl
          rw [Option.getD_some, PriorityQueues.items_push pushed, sends]
          simp only [popped, Option.toList_none, Multiset.coe_nil, add_zero, Option.toList_some,
            Multiset.coe_singleton, Multiset.add_cons]
          rw [add_comm _ ({item} : Multiset T), Multiset.singleton_add]
  | pop draws item =>
      rcases queues.popInner_spec draws with ⟨⟨taken, after⟩, pops, spec⟩
      rw [step, pops] at steps
      change (if taken = item then some after else none) = some next at steps
      rw [Option.ite_none_right_eq_some] at steps
      rcases steps with ⟨rfl, same⟩
      rcases Option.some.inj same with rfl
      cases taken with
      | none =>
          rw [spec.2]
          simp [popped, sent]
      | some taken =>
          have split : queues.items = taken ::ₘ after.items := spec
          rw [split]
          simp only [popped, sent, Option.toList_some, Multiset.coe_singleton, Option.toList_none,
            Multiset.coe_nil, add_zero, add_assoc, Multiset.singleton_add]

/-- Nothing is lost or duplicated, and a queue that is not empty gives something. -/
theorem run_conserves [DecidableEq T] {calls : List (QueueCall T)} {last : PriorityQueues T}
    (run : Run step (fun _ _ => True) .empty calls last) :
    Conserved calls last ∧
      (last.isEmpty = false → ∀ draws, ∃ item after,
        last.popInner draws = some (some item, after)) := by
  constructor
  · apply run.invariant Conserved
    · rfl
    · exact fun conserved _ steps => conserved_step conserved steps
  · exact fun nonempty draws => PriorityQueues.popInner_isSome nonempty draws

/-- A task is sent before one that is more urgent, and popped after it. -/
theorem run_conserves_urgent :
    Conserved [.send .low 1, .send .high 2, .pop ⟨59, 0, 0⟩ (some 2), .pop ⟨0, 0, 9⟩ (some 1)]
      (.empty : PriorityQueues Nat) := by
  apply (run_conserves (Run.of_foldlM _)).1
  decide

end QueueCall

end Gpui
