import Gpui.Library.Word
import Gpui.RasterCache.TransformHandle

/-!
# Snapshots are the transforms published

A snapshot returns what was published last when it loads the generation for the second
time: the generation counts the publications, and while it is even the atomics hold the
last one.
-/

namespace Gpui

open Gpui.Library

variable {Instant T : Type}

namespace TransformEvent

/-- The revision and the transform an event publishes. -/
def published : TransformEvent Instant T → Option (UInt64 × RasterCompositorTransform)
  | .publish _ revision transform => some (revision, transform)
  | _ => none

def isClaim : TransformEvent Instant T → Bool
  | .claim _ => true
  | _ => false

end TransformEvent

/-- The update that a thread is at. -/
def TransformPc.carried : TransformPc Instant → Option (TransformUpdate Instant)
  | .idle => none
  | .before update | .readScale update _ | .readX update _ _ | .readY update _ _ _
  | .after update _ _ => update
  | .load update | .exchange update _ | .write update _ _ => some update

theorem RasterCompositorTransformState.pushUpdate_keeps
    (state : RasterCompositorTransformState Instant) (revision : UInt64) (updatedAt : Instant) :
    (state.pushUpdate revision updatedAt).transform = state.transform ∧
      (state.pushUpdate revision updatedAt).generation = state.generation := by
  simp only [pushUpdate, transform, and_self]

namespace RasterCompositorTransformHandle

def publications (events : List (TransformEvent Instant T)) :
    List (UInt64 × RasterCompositorTransform) :=
  events.filterMap TransformEvent.published

/-- The number of updates that have begun to write. -/
def claims (events : List (TransformEvent Instant T)) : Nat :=
  events.countP TransformEvent.isClaim

/-- The transform published last, at first the initial one. -/
def latest (initial : RasterCompositorTransform) (events : List (TransformEvent Instant T)) :
    RasterCompositorTransform :=
  ((publications events).getLast?.map Prod.snd).getD initial

/-! ## What holds at any time -/

/-- A generation that a reader has loaded. -/
def Seen (state : RasterCompositorTransformState Instant) (before : UInt64) : Prop :=
  before.toNat % 2 = 0 ∧ before.toNat ≤ state.generation.toNat

/-- As long as the generation is the one it has loaded, a reader has read what is there. -/
def ReaderOk (state : RasterCompositorTransformState Instant) : TransformPc Instant → Prop
  | .readScale _ before => Seen state before
  | .readX _ before scale =>
      Seen state before ∧ (state.generation = before → scale = state.scaleBits)
  | .readY _ before scale translationX =>
      Seen state before ∧ (state.generation = before →
        scale = state.scaleBits ∧ translationX = state.translationXBits)
  | .after _ before transform =>
      Seen state before ∧ (state.generation = before → transform = state.transform)
  | .exchange _ generation => generation.toNat % 2 = 0
  | _ => True

/-- What a writer has stored. -/
def HasStored (state : RasterCompositorTransformState Instant)
    (transform : RasterCompositorTransform) : TransformStore → Prop
  | .scale => True
  | .translationX => state.scaleBits = transform.scale
  | .translationY =>
      state.scaleBits = transform.scale ∧ state.translationXBits = transform.translationX
  | .updates | .generation => state.transform = transform

def IsWriting : TransformPc Instant → Prop
  | .write _ _ _ => True
  | _ => False

/-- Either nobody writes, or one thread does. -/
inductive Phase (initial : RasterCompositorTransform) (events : List (TransformEvent Instant T))
    (handle : RasterCompositorTransformHandle Instant T) : Prop
  | quiet
      (generation : handle.state.generation.toNat = 2 * (publications events).length)
      (claimed : claims events = (publications events).length)
      (idle : ∀ thread, ¬ IsWriting (handle.threads thread))
      (transform : handle.state.transform = latest initial events)
  | writing (writer : T) (update : TransformUpdate Instant) (before : UInt64)
      (store : TransformStore)
      (pc : handle.threads writer = .write update before store)
      (even : before.toNat = 2 * (publications events).length)
      (odd : handle.state.generation.toNat = before.toNat + 1)
      (claimed : claims events = (publications events).length + 1)
      (others : ∀ thread, thread ≠ writer → ¬ IsWriting (handle.threads thread))
      (stored : HasStored handle.state update.transform store)

structure Coherent (initial : RasterCompositorTransform)
    (events : List (TransformEvent Instant T))
    (handle : RasterCompositorTransformHandle Instant T) : Prop where
  phase : Phase initial events handle
  readers : ∀ thread, ReaderOk handle.state (handle.threads thread)
  revisions : (publications events).map (fun publication => publication.1.toNat) =
    List.range' 1 (publications events).length
  snapshots : ∀ {front back thread revision transform},
    events = front ++ .snapshot thread revision transform :: back →
    revision.toNat = (publications front).length ∧ transform = latest initial front

theorem coherent_new {initial : RasterCompositorTransform} {now : Instant}
    {handle : RasterCompositorTransformHandle Instant T} (created : new initial now = some handle) :
    Coherent initial [] handle := by
  rcases Option.map_eq_some_iff.mp created with ⟨same, valid, rfl⟩
  rw [RasterCompositorTransform.ofParts] at valid
  rcases Option.ite_none_right_eq_some.mp valid with ⟨_, valid⟩
  rcases Option.some.inj valid with rfl
  constructor
  · exact .quiet rfl rfl (fun _ writing => writing) rfl
  · exact fun _ => trivial
  · rfl
  · exact fun split => absurd split (List.append_ne_nil_of_right_ne_nil _ (List.cons_ne_nil _ _)).symm

/-- Every update was begun. -/
structure Begun (events : List (TransformEvent Instant T))
    (handle : RasterCompositorTransformHandle Instant T) : Prop where
  carried : ∀ {thread update}, (handle.threads thread).carried = some update →
    .beginUpdate thread update ∈ events
  published : ∀ {thread revision transform}, .publish thread revision transform ∈ events →
    ∃ updatedAt, Before (.beginUpdate thread ⟨transform, updatedAt⟩)
      (.publish thread revision transform) events

theorem begun_new {initial : RasterCompositorTransform} {now : Instant}
    {handle : RasterCompositorTransformHandle Instant T} (created : new initial now = some handle) :
    Begun [] handle := by
  rcases Option.map_eq_some_iff.mp created with ⟨same, valid, rfl⟩
  constructor
  · exact fun none => by cases none
  · exact fun member => by cases member

/-! ## Readers -/

theorem ReaderOk.mono {before after : RasterCompositorTransformState Instant}
    {pc : TransformPc Instant} (ok : ReaderOk before pc)
    (later : before.generation.toNat ≤ after.generation.toNat)
    (moved : ∀ seen, Seen before seen → after.generation ≠ seen) : ReaderOk after pc := by
  cases pc with
  | readScale update seen => exact ⟨ok.1, ok.2.trans later⟩
  | readX update seen scale =>
      exact ⟨⟨ok.1.1, ok.1.2.trans later⟩, fun same => absurd same (moved seen ok.1)⟩
  | readY update seen scale translationX =>
      exact ⟨⟨ok.1.1, ok.1.2.trans later⟩, fun same => absurd same (moved seen ok.1)⟩
  | after update seen transform =>
      exact ⟨⟨ok.1.1, ok.1.2.trans later⟩, fun same => absurd same (moved seen ok.1)⟩
  | exchange update generation => exact ok
  | _ => trivial

/-- Storing while the generation is odd concerns no reader. -/
theorem ReaderOk.of_odd {before after : RasterCompositorTransformState Instant}
    {pc : TransformPc Instant} (ok : ReaderOk before pc)
    (later : before.generation.toNat ≤ after.generation.toNat)
    (odd : after.generation.toNat % 2 = 1) : ReaderOk after pc := by
  apply ok.mono later
  intro seen even same
  rw [← same] at even
  exact absurd (even.1.symm.trans odd) Nat.zero_ne_one

/-! ## Steps -/

section Steps

variable {initial : RasterCompositorTransform} {events : List (TransformEvent Instant T)}
  {event : TransformEvent Instant T} {handle next : RasterCompositorTransformHandle Instant T}

theorem publications_append (event : TransformEvent Instant T) :
    publications (events ++ [event]) = publications events ++ event.published.toList := by
  rw [publications, List.filterMap_append]
  cases published : event.published with
  | none => rw [List.filterMap_cons_none published]; rfl
  | some publication => rw [List.filterMap_cons_some published]; rfl

theorem claims_append (event : TransformEvent Instant T) :
    claims (events ++ [event]) = claims events + if event.isClaim then 1 else 0 := by
  rw [claims, List.countP_append, List.countP_singleton]
  rfl

/-- An event that publishes and claims nothing. -/
theorem Phase.of_silent (phase : Phase initial events handle) (published : event.published = none)
    (noClaim : event.isClaim = false) : Phase initial (events ++ [event]) handle := by
  have publications' : publications (events ++ [event]) = publications events := by
    rw [publications_append, published]
    exact List.append_nil _
  have claims' : claims (events ++ [event]) = claims events := by
    rw [claims_append, noClaim]
    rfl
  have latest' : latest initial (events ++ [event]) = latest initial events := by
    rw [latest, publications', latest]
  cases phase with
  | quiet generation claimed idle transform =>
      exact .quiet (publications' ▸ generation) (by rw [claims', publications', claimed]) idle
        (transform.trans latest'.symm)
  | writing writer update before store pc even odd claimed others stored =>
      exact .writing writer update before store pc (publications' ▸ even) odd
        (by rw [claims', publications', claimed]) others stored

theorem not_writing_of_ne {thread writer : T} {update : TransformUpdate Instant}
    {before : UInt64} {store : TransformStore}
    (pc : handle.threads writer = .write update before store)
    (notWriting : ¬ IsWriting (handle.threads thread)) : writer ≠ thread := by
  rintro rfl
  rw [pc] at notWriting
  exact notWriting trivial

/-- While the generation is even, nobody writes. -/
theorem Phase.of_even (phase : Phase initial events handle)
    (even : handle.state.generation.toNat % 2 = 0) :
    handle.state.generation.toNat = 2 * (publications events).length ∧
      claims events = (publications events).length ∧
      (∀ thread, ¬ IsWriting (handle.threads thread)) ∧
      handle.state.transform = latest initial events := by
  cases phase with
  | quiet generation claimed idle transform => exact ⟨generation, claimed, idle, transform⟩
  | writing writer update before store pc before_even odd claimed others stored => omega

/-- A thread that writes is the only one. -/
theorem Phase.of_write (phase : Phase initial events handle) {thread : T}
    {update : TransformUpdate Instant} {before : UInt64} {store : TransformStore}
    (pc : handle.threads thread = .write update before store) :
    before.toNat = 2 * (publications events).length ∧
      handle.state.generation.toNat = before.toNat + 1 ∧
      claims events = (publications events).length + 1 ∧
      (∀ other, other ≠ thread → ¬ IsWriting (handle.threads other)) ∧
      HasStored handle.state update.transform store := by
  have writes : IsWriting (handle.threads thread) := by
    rw [pc]
    trivial
  cases phase with
  | quiet generation claimed idle transform => exact absurd writes (idle thread)
  | writing writer update' before' store' pc' even odd claimed others stored =>
      by_cases same : thread = writer
      · subst same
        cases pc.symm.trans pc'
        exact ⟨even, odd, claimed, others, stored⟩
      · exact absurd writes (others thread same)

theorem Coherent.snoc (coherent : Coherent initial events handle)
    (phase : Phase initial (events ++ [event]) next)
    (readers : ∀ thread, ReaderOk next.state (next.threads thread))
    (published : ∀ publication, event.published = some publication →
      publication.1.toNat = (publications events).length + 1)
    (snapshot : ∀ {thread revision transform}, event = .snapshot thread revision transform →
      revision.toNat = (publications events).length ∧ transform = latest initial events) :
    Coherent initial (events ++ [event]) next where
  phase := phase
  readers := readers
  revisions := by
    rw [publications_append]
    cases published' : event.published with
    | none =>
        simp only [Option.toList_none, List.append_nil]
        exact coherent.revisions
    | some publication =>
        have revision := published publication published'
        simp only [Option.toList_some, List.map_append, List.map_cons, List.map_nil,
          List.length_append, List.length_singleton]
        rw [coherent.revisions, revision, List.range'_concat, Nat.one_mul, Nat.add_comm 1]
  snapshots split := by
    rcases snoc_eq_append_cons split with ⟨_, rfl, same⟩ | ⟨rest, _, earlier⟩
    · exact snapshot same.symm
    · exact coherent.snapshots earlier

variable [DecidableEq T]

theorem Phase.goTo (phase : Phase initial events handle) {thread : T} {pc : TransformPc Instant}
    (before : ¬ IsWriting (handle.threads thread)) (after : ¬ IsWriting pc) :
    Phase initial events (handle.goTo thread pc) := by
  have still : ∀ other, ¬ IsWriting (handle.threads other) →
      ¬ IsWriting ((handle.goTo thread pc).threads other) := by
    intro other notWriting
    change ¬ IsWriting (Function.update handle.threads thread pc other)
    by_cases same : other = thread
    · rw [same, Function.update_self]
      exact after
    · rw [Function.update_of_ne same]
      exact notWriting
  cases phase with
  | quiet generation claimed idle transform =>
      exact .quiet generation claimed (fun other => still other (idle other)) transform
  | writing writer update seen store pc' even odd claimed others stored =>
      have differs := not_writing_of_ne pc' before
      refine .writing writer update seen store ?_ even odd claimed
        (fun other ne => still other (others other ne)) stored
      exact (Function.update_of_ne differs _ _).trans pc'

theorem readers_goTo {state : RasterCompositorTransformState Instant} {thread : T}
    {pc : TransformPc Instant} (ok : ReaderOk state pc)
    (others : ∀ other, other ≠ thread → ReaderOk state (handle.threads other)) (other : T) :
    ReaderOk state (Function.update handle.threads thread pc other) := by
  by_cases same : other = thread
  · rw [same, Function.update_self]
    exact ok
  · rw [Function.update_of_ne same]
    exact others other same

theorem others_not_writing {state : RasterCompositorTransformState Instant} {thread : T}
    {pc : TransformPc Instant}
    (others : ∀ other, other ≠ thread → ¬ IsWriting (handle.threads other)) (other : T)
    (ne : other ≠ thread) :
    ¬ IsWriting ((RasterCompositorTransformHandle.mk state
      (Function.update handle.threads thread pc)).threads other) := by
  change ¬ IsWriting (Function.update handle.threads thread pc other)
  rw [Function.update_of_ne ne]
  exact others other ne

/-- A step that only moves a thread on, and returns no snapshot. -/
theorem Coherent.goTo (coherent : Coherent initial events handle) {thread : T}
    {pc : TransformPc Instant} (published : event.published = none)
    (noClaim : event.isClaim = false)
    (noSnapshot : ∀ {thread revision transform}, event ≠ .snapshot thread revision transform)
    (before : ¬ IsWriting (handle.threads thread)) (after : ¬ IsWriting pc)
    (ok : ReaderOk handle.state pc) :
    Coherent initial (events ++ [event]) (handle.goTo thread pc) := by
  refine coherent.snoc ((coherent.phase.goTo before after).of_silent published noClaim) ?_ ?_ ?_
  · exact readers_goTo ok fun other _ => coherent.readers other
  · intro publication publishes
    rw [published] at publishes
    cases publishes
  · exact fun same => absurd same noSnapshot

theorem not_writing_beginUpdate (update : TransformUpdate Instant) :
    ¬ IsWriting (TransformPc.beginUpdate update) ∧
      ∀ state, ReaderOk state (TransformPc.beginUpdate update) := by
  rw [TransformPc.beginUpdate]
  split
  · exact ⟨fun writing => writing, fun _ => trivial⟩
  · exact ⟨fun writing => writing, fun _ => trivial⟩

theorem not_writing_afterSnapshot (read : RasterCompositorTransform)
    (update : Option (TransformUpdate Instant)) :
    ¬ IsWriting (TransformPc.afterSnapshot read update) ∧
      ∀ state, ReaderOk state (TransformPc.afterSnapshot read update) := by
  cases update with
  | none => exact ⟨fun writing => writing, fun _ => trivial⟩
  | some update =>
      rw [TransformPc.afterSnapshot]
      split
      · exact ⟨fun writing => writing, fun _ => trivial⟩
      · exact ⟨fun writing => writing, fun _ => trivial⟩

/-- A thread either reads, or stores one field of its update. -/
theorem advance_cases {state after : RasterCompositorTransformState Instant}
    {pc pc' : TransformPc Instant} (steps : advance state pc = some (after, pc')) :
    after = state ∧ ¬ IsWriting pc ∧ ¬ IsWriting pc' ∧ (ReaderOk state pc → ReaderOk state pc') ∨
      ∃ update before store store', pc = .write update before store ∧
        pc' = .write update before store' ∧ after.generation = state.generation ∧
        (HasStored state update.transform store → HasStored after update.transform store') := by
  cases pc with
  | idle => cases steps
  | before update =>
      rw [advance] at steps
      split at steps
      next =>
        rcases Option.some.inj steps with ⟨⟩
        exact Or.inl ⟨rfl, id, id, id⟩
      next even =>
        rcases Option.some.inj steps with ⟨⟩
        have seen : Seen state state.generation := by
          constructor
          · have notOdd : ¬ state.generation.toNat % 2 = 1 := fun odd => even (odd_iff.mpr odd)
            omega
          · exact le_rfl
        exact Or.inl ⟨rfl, id, id, fun _ => seen⟩
  | readScale update before =>
      rcases Option.some.inj steps with ⟨⟩
      exact Or.inl ⟨rfl, id, id, fun seen => ⟨seen, fun _ => rfl⟩⟩
  | readX update before scale =>
      rcases Option.some.inj steps with ⟨⟩
      exact Or.inl ⟨rfl, id, id, fun ok => ⟨ok.1, fun same => ⟨ok.2 same, rfl⟩⟩⟩
  | readY update before scale translationX =>
      rcases Option.some.inj steps with ⟨⟩
      refine Or.inl ⟨rfl, id, id, fun ok => ⟨ok.1, fun same => ?_⟩⟩
      rcases ok.2 same with ⟨rfl, rfl⟩
      rfl
  | after update before transform =>
      rcases Option.ite_none_left_eq_some.mp steps with ⟨_, steps⟩
      rcases Option.some.inj steps with ⟨⟩
      exact Or.inl ⟨rfl, id, id, fun _ => trivial⟩
  | load update =>
      rw [advance] at steps
      split at steps
      next =>
        rcases Option.some.inj steps with ⟨⟩
        exact Or.inl ⟨rfl, id, id, id⟩
      next even =>
        rcases Option.some.inj steps with ⟨⟩
        have seen : state.generation.toNat % 2 = 0 := by
          have notOdd : ¬ state.generation.toNat % 2 = 1 := fun odd => even (odd_iff.mpr odd)
          omega
        exact Or.inl ⟨rfl, id, id, fun _ => seen⟩
  | exchange update generation =>
      rcases Option.ite_none_left_eq_some.mp steps with ⟨_, steps⟩
      rcases Option.some.inj steps with ⟨⟩
      exact Or.inl ⟨rfl, id, id, fun _ => trivial⟩
  | write update generation store =>
      cases store with
      | scale =>
          rcases Option.some.inj steps with ⟨⟩
          exact Or.inr ⟨update, generation, _, _, rfl, rfl, rfl, fun _ => rfl⟩
      | translationX =>
          rcases Option.some.inj steps with ⟨⟩
          exact Or.inr ⟨update, generation, _, _, rfl, rfl, rfl, fun stored => ⟨stored, rfl⟩⟩
      | translationY =>
          rcases Option.some.inj steps with ⟨⟩
          refine Or.inr ⟨update, generation, _, _, rfl, rfl, rfl, fun stored => ?_⟩
          rcases stored with ⟨scale, translationX⟩
          change RasterCompositorTransform.mk _ _ _ = update.transform
          rw [scale, translationX]
      | updates =>
          rcases Option.some.inj steps with ⟨⟩
          rcases state.pushUpdate_keeps ((generation + 2) / 2) update.updatedAt with
            ⟨transform, kept⟩
          exact Or.inr ⟨update, generation, _, _, rfl, rfl, kept, transform.trans⟩
      | generation => cases steps

theorem Coherent.advance (coherent : Coherent initial events handle) {thread : T}
    (steps : handle.step (.advance thread) = some next) :
    Coherent initial (events ++ [.advance thread]) next := by
  rcases Option.bind_eq_some_iff.mp steps with ⟨⟨state, pc⟩, advances, same⟩
  rcases Option.some.inj same with rfl
  rcases advance_cases advances with
    ⟨rfl, before, after, ok⟩ | ⟨update, seen, store, store', pc', rfl, generation, stores⟩
  · exact coherent.goTo rfl rfl (fun same => by cases same) before after
      (ok (coherent.readers thread))
  · rcases coherent.phase.of_write pc' with ⟨even, odd, claimed, others, stored⟩
    rw [← generation] at odd
    apply coherent.snoc
    · apply Phase.of_silent
      · exact .writing thread update seen store' (Function.update_self ..) even odd claimed
          (others_not_writing others) (stores stored)
      · rfl
      · rfl
    · apply readers_goTo
      · trivial
      · intro other _
        apply (coherent.readers other).of_odd
        · exact (congrArg UInt64.toNat generation).ge
        · change state.generation.toNat % 2 = 1
          omega
    · exact fun _ publishes => by cases publishes
    · exact fun same => by cases same

/-- What the atomics hold when the generation is loaded again is what was published last. -/
theorem Coherent.snapshot (coherent : Coherent initial events handle) {thread : T}
    {revision : UInt64} {transform : RasterCompositorTransform}
    (steps : handle.step (.snapshot thread revision transform) = some next) :
    Coherent initial (events ++ [.snapshot thread revision transform]) next := by
  have ok := coherent.readers thread
  rw [step] at steps
  split at steps
  next update before read pc =>
    rcases Option.ite_none_right_eq_some.mp steps with ⟨⟨same, rfl, rfl⟩, moves⟩
    rcases Option.some.inj moves with rfl
    rw [pc] at ok
    rcases ok with ⟨⟨even, _⟩, unchanged⟩
    rw [same] at even
    rcases coherent.phase.of_even even with ⟨generation, _, idle, latest⟩
    rcases not_writing_afterSnapshot transform update with ⟨notWriting, after⟩
    refine coherent.snoc ((coherent.phase.goTo (idle thread) notWriting).of_silent rfl rfl) ?_ ?_ ?_
    · exact readers_goTo (after _) fun other _ => coherent.readers other
    · exact fun _ publishes => by cases publishes
    · intro _ _ _ same'
      cases same'
      constructor
      · rw [toNat_half, generation]
        exact Nat.mul_div_cancel_left _ Nat.two_pos
      · exact (unchanged same.symm).trans latest
  next => cases steps

/-- A generation that is claimed is even. -/
theorem Coherent.claim (coherent : Coherent initial events handle) {thread : T}
    (few : claims (events ++ [.claim thread]) < 2 ^ 63)
    (steps : handle.step (.claim thread) = some next) :
    Coherent initial (events ++ [.claim thread]) next := by
  have ok := coherent.readers thread
  rw [step] at steps
  split at steps
  next update before pc =>
    rcases Option.ite_none_right_eq_some.mp steps with ⟨rfl, moves⟩
    rcases Option.some.inj moves with rfl
    rw [pc] at ok
    rcases coherent.phase.of_even ok with ⟨generation, claimed, idle, _⟩
    have claimed' : claims (events ++ [.claim thread]) = (publications events).length + 1 := by
      rw [claims_append, claimed]
      rfl
    have publications' : publications (events ++ [.claim thread]) = publications events := by
      rw [publications_append]
      exact List.append_nil _
    have odd : (handle.state.generation + 1).toNat = handle.state.generation.toNat + 1 := by
      apply toNat_add_one
      omega
    apply coherent.snoc
    · rw [← publications'] at generation claimed'
      exact .writing thread update _ .scale (Function.update_self ..) generation odd claimed'
        (others_not_writing fun other _ => idle other) trivial
    · apply readers_goTo
      · trivial
      · intro other _
        apply (coherent.readers other).of_odd
        · exact odd ▸ Nat.le_succ _
        · change (handle.state.generation + 1).toNat % 2 = 1
          omega
    · exact fun _ publishes => by cases publishes
    · exact fun same => by cases same
  next => cases steps

theorem Coherent.publish (coherent : Coherent initial events handle) {thread : T}
    {revision : UInt64} {transform : RasterCompositorTransform}
    (few : claims (events ++ [.publish thread revision transform]) < 2 ^ 63)
    (steps : handle.step (.publish thread revision transform) = some next) :
    Coherent initial (events ++ [.publish thread revision transform]) next := by
  rw [step] at steps
  split at steps
  next update before pc =>
    rcases Option.ite_none_right_eq_some.mp steps with ⟨⟨rfl, rfl⟩, moves⟩
    rcases Option.some.inj moves with rfl
    rcases coherent.phase.of_write pc with ⟨even, odd, claimed, others, stored⟩
    have claimed' : claims (events ++ [.publish thread ((before + 2) / 2) update.transform]) =
        claims events := claims_append _
    have publications' :
        publications (events ++ [.publish thread ((before + 2) / 2) update.transform]) =
          publications events ++ [((before + 2) / 2, update.transform)] := publications_append _
    have published : (before + 2).toNat = before.toNat + 2 := by
      apply toNat_add_two
      omega
    apply coherent.snoc
    · apply Phase.quiet
      · rw [publications', List.length_append]
        change (before + 2).toNat = 2 * (_ + 1)
        omega
      · rw [claimed', claimed, publications', List.length_append]
        rfl
      · intro other
        by_cases same : other = thread
        · rw [same]
          change ¬ IsWriting (Function.update handle.threads thread .idle thread)
          rw [Function.update_self]
          exact id
        · exact others_not_writing others other same
      · rw [latest, publications', List.getLast?_concat]
        exact stored
    · apply readers_goTo
      · trivial
      · intro other _
        apply (coherent.readers other).mono
        · change _ ≤ (before + 2).toNat
          omega
        · rintro seen ⟨_, bound⟩ rfl
          change (before + 2).toNat ≤ _ at bound
          omega
    · intro publication publishes
      cases publishes
      change ((before + 2) / 2).toNat = _
      rw [toNat_half]
      omega
    · exact fun same => by cases same
  next => cases steps

theorem Coherent.step (coherent : Coherent initial events handle)
    (few : claims (events ++ [event]) < 2 ^ 63) (steps : handle.step event = some next) :
    Coherent initial (events ++ [event]) next := by
  cases event with
  | beginSnapshot thread =>
      rw [RasterCompositorTransformHandle.step] at steps
      split at steps
      next pc =>
        rcases Option.some.inj steps with rfl
        apply coherent.goTo rfl rfl (fun same => by cases same) (pc ▸ id) id
        trivial
      next => cases steps
  | beginUpdate thread update =>
      rw [RasterCompositorTransformHandle.step] at steps
      split at steps
      next pc =>
        rcases Option.some.inj steps with rfl
        rcases not_writing_beginUpdate update with ⟨notWriting, ok⟩
        exact coherent.goTo rfl rfl (fun same => by cases same) (pc ▸ id) notWriting (ok _)
      next => cases steps
  | advance thread => exact coherent.advance steps
  | snapshot thread revision transform => exact coherent.snapshot steps
  | claim thread => exact coherent.claim few steps
  | publish thread revision transform => exact coherent.publish few steps

/-! ## Updates -/

theorem carried_beginUpdate {update carried : TransformUpdate Instant}
    (carries : (TransformPc.beginUpdate update).carried = some carried) : carried = update := by
  rw [TransformPc.beginUpdate] at carries
  split at carries
  next valid =>
    rw [RasterCompositorTransform.ofParts] at valid
    rcases Option.ite_none_right_eq_some.mp valid with ⟨_, valid⟩
    rcases Option.some.inj valid with rfl
    exact (Option.some.inj carries).symm
  next => cases carries

theorem carried_afterSnapshot {read : RasterCompositorTransform}
    {update : Option (TransformUpdate Instant)} {carried : TransformUpdate Instant}
    (carries : (TransformPc.afterSnapshot read update).carried = some carried) :
    update = some carried := by
  cases update with
  | none => cases carries
  | some update =>
      rw [TransformPc.afterSnapshot] at carries
      split at carries
      next => cases carries
      next => exact carries

theorem carried_advance {state after : RasterCompositorTransformState Instant}
    {pc pc' : TransformPc Instant} (steps : advance state pc = some (after, pc')) :
    pc'.carried = pc.carried := by
  cases pc with
  | idle => cases steps
  | before update =>
      rw [advance] at steps
      split at steps
      next => cases steps; rfl
      next => cases steps; rfl
  | readScale update before => cases steps; rfl
  | readX update before scale => cases steps; rfl
  | readY update before scale translationX => cases steps; rfl
  | after update before transform =>
      rcases Option.ite_none_left_eq_some.mp steps with ⟨_, steps⟩
      cases steps; rfl
  | load update =>
      rw [advance] at steps
      split at steps
      next => cases steps; rfl
      next => cases steps; rfl
  | exchange update generation =>
      rcases Option.ite_none_left_eq_some.mp steps with ⟨_, steps⟩
      cases steps; rfl
  | write update generation store => cases store <;> cases steps <;> rfl

theorem carried_goTo {threads : T → TransformPc Instant} {thread other : T}
    {pc : TransformPc Instant} {carried : TransformUpdate Instant}
    (kept : pc.carried = some carried → (threads thread).carried = some carried)
    (carries : (Function.update threads thread pc other).carried = some carried) :
    (threads other).carried = some carried := by
  by_cases same : other = thread
  · rw [same, Function.update_self] at carries
    rw [same]
    exact kept carries
  · rw [Function.update_of_ne same] at carries
    exact carries

/-- A thread carries only updates that it was called with. -/
theorem step_carried (steps : handle.step event = some next) {thread : T}
    {carried : TransformUpdate Instant} (carries : (next.threads thread).carried = some carried) :
    (handle.threads thread).carried = some carried ∨ event = .beginUpdate thread carried := by
  cases event with
  | beginSnapshot starts =>
      rw [step] at steps
      split at steps
      next pc =>
        rcases Option.some.inj steps with rfl
        exact Or.inl (carried_goTo (fun none => by cases none) carries)
      next => cases steps
  | beginUpdate starts update =>
      rw [step] at steps
      split at steps
      next pc =>
        rcases Option.some.inj steps with rfl
        change (Function.update handle.threads starts _ thread).carried = _ at carries
        by_cases same : thread = starts
        · rw [same, Function.update_self] at carries
          rw [same, carried_beginUpdate carries]
          exact Or.inr rfl
        · rw [Function.update_of_ne same] at carries
          exact Or.inl carries
      next => cases steps
  | advance moves =>
      rcases Option.bind_eq_some_iff.mp steps with ⟨⟨state, pc⟩, advances, same⟩
      rcases Option.some.inj same with rfl
      exact Or.inl (carried_goTo (carried_advance advances).symm.trans carries)
  | snapshot returns revision transform =>
      rw [step] at steps
      split at steps
      next update before read pc =>
        rcases Option.ite_none_right_eq_some.mp steps with ⟨_, moves⟩
        rcases Option.some.inj moves with rfl
        refine Or.inl (carried_goTo (fun some => ?_) carries)
        rw [pc]
        exact carried_afterSnapshot some
      next => cases steps
  | claim writer =>
      rw [step] at steps
      split at steps
      next update before pc =>
        rcases Option.ite_none_right_eq_some.mp steps with ⟨_, moves⟩
        rcases Option.some.inj moves with rfl
        refine Or.inl (carried_goTo (fun some => ?_) carries)
        rw [pc]
        exact some
      next => cases steps
  | publish writer revision transform =>
      rw [step] at steps
      split at steps
      next update before pc =>
        rcases Option.ite_none_right_eq_some.mp steps with ⟨_, moves⟩
        rcases Option.some.inj moves with rfl
        exact Or.inl (carried_goTo (fun none => by cases none) carries)
      next => cases steps

theorem step_publish {thread : T} {revision : UInt64} {transform : RasterCompositorTransform}
    (steps : handle.step (.publish thread revision transform) = some next) :
    ∃ update, (handle.threads thread).carried = some update ∧ update.transform = transform := by
  rw [step] at steps
  split at steps
  next update before pc =>
    rcases Option.ite_none_right_eq_some.mp steps with ⟨⟨_, same⟩, _⟩
    exact ⟨update, congrArg TransformPc.carried pc, same.symm⟩
  next => cases steps

theorem Begun.step (begun : Begun events handle) (steps : handle.step event = some next) :
    Begun (events ++ [event]) next where
  carried carries := by
    rcases step_carried steps carries with before | rfl
    · exact List.mem_append_left _ (begun.carried before)
    · exact List.mem_append_right _ List.mem_cons_self
  published member := by
    rcases mem_snoc.mp member with member | rfl
    · rcases begun.published member with ⟨updatedAt, before⟩
      exact ⟨updatedAt, before.append _⟩
    · rcases step_publish steps with ⟨update, carries, rfl⟩
      exact ⟨update.updatedAt, before_snoc_iff.mpr (Or.inr ⟨rfl, begun.carried carries⟩)⟩

end Steps

/-! ## Runs -/

/-- What a run shows: each snapshot is the publication before it, the publications are
numbered, and every update that has begun to write is published, but for the one that is
writing. -/
structure Linearizable (initial : RasterCompositorTransform)
    (events : List (TransformEvent Instant T))
    (handle : RasterCompositorTransformHandle Instant T) : Prop where
  snapshot : ∀ {front back thread revision transform},
    events = front ++ .snapshot thread revision transform :: back →
    (revision, transform) = (publications front).getLast?.getD (0, initial)
  monotone : ∀ {front middle back first second revision later transform other},
    events = front ++ .snapshot first revision transform ::
      (middle ++ .snapshot second later other :: back) →
    revision ≤ later
  published : ∀ {thread revision transform}, .publish thread revision transform ∈ events →
    ∃ updatedAt, Before (.beginUpdate thread ⟨transform, updatedAt⟩)
      (.publish thread revision transform) events
  revisions : (publications events).map (fun publication => publication.1.toNat) =
    List.range' 1 (publications events).length
  counted : handle.state.generation.toNat / 2 = (publications events).length
  claimed : claims events = (publications events).length + handle.state.generation.toNat % 2

section Runs

variable {initial : RasterCompositorTransform} {now : Instant}
  {events front back : List (TransformEvent Instant T)}
  {handle last : RasterCompositorTransformHandle Instant T}

theorem Coherent.revisions_front (coherent : Coherent initial events handle)
    (split : events = front ++ back) :
    (publications front).map (fun publication => publication.1.toNat) =
      List.range' 1 (publications front).length := by
  have split' : publications events = publications front ++ publications back := by
    rw [split, publications, List.filterMap_append]
    rfl
  have revisions := congrArg (List.take (publications front).length) coherent.revisions
  rw [List.take_range'_of_length_ge, split', List.map_append, List.take_left'] at revisions
  · exact revisions
  · exact List.length_map _
  · rw [split', List.length_append]
    exact Nat.le_add_right _ _

theorem Coherent.snapshot_eq (coherent : Coherent initial events handle) {thread : T}
    {revision : UInt64} {transform : RasterCompositorTransform}
    (split : events = front ++ .snapshot thread revision transform :: back) :
    (revision, transform) = (publications front).getLast?.getD (0, initial) := by
  rcases coherent.snapshots split with ⟨counted, same⟩
  have revisions := coherent.revisions_front split
  rw [latest] at same
  rcases List.eq_nil_or_concat (publications front) with none | ⟨earlier, publication, some⟩
  · rw [none] at counted same ⊢
    exact Prod.ext (UInt64.toNat_inj.mp counted) same
  · rw [List.concat_eq_append] at some
    rw [some] at counted same revisions ⊢
    rw [List.getLast?_concat] at same ⊢
    rw [List.map_append, List.length_append, List.length_singleton, List.range'_concat] at revisions
    have number : publication.1.toNat = _ :=
      List.singleton_inj.mp (List.append_inj' revisions rfl).2
    rw [List.length_append, List.length_singleton] at counted
    apply Prod.ext
    · apply UInt64.toNat_inj.mp
      change revision.toNat = publication.1.toNat
      omega
    · exact same

theorem Coherent.monotone (coherent : Coherent initial events handle)
    {middle : List (TransformEvent Instant T)} {first second : T} {revision later : UInt64}
    {transform other : RasterCompositorTransform}
    (split : events = front ++ .snapshot first revision transform ::
      (middle ++ .snapshot second later other :: back)) : revision ≤ later := by
  rcases coherent.snapshots split with ⟨counted, _⟩
  rw [← List.cons_append, ← List.append_assoc] at split
  rcases coherent.snapshots split with ⟨counted', _⟩
  rw [UInt64.le_iff_toNat_le, counted, counted', publications, publications,
    List.filterMap_append, List.length_append]
  exact Nat.le_add_right _ _

theorem Coherent.counts (coherent : Coherent initial events handle) :
    handle.state.generation.toNat / 2 = (publications events).length ∧
      claims events = (publications events).length + handle.state.generation.toNat % 2 := by
  cases coherent.phase with
  | quiet generation claimed idle transform => omega
  | writing writer update before store pc even odd claimed others stored => omega

variable [DecidableEq T]

theorem run_coherent (created : new initial now = some handle)
    (run : Run step (fun _ _ => True) handle events last) (few : claims events < 2 ^ 63) :
    Coherent initial events last := by
  apply run.invariant (fun events last => claims events < 2 ^ 63 → Coherent initial events last)
  · exact fun _ => coherent_new created
  · intro events state event next coherent _ steps few
    apply (coherent _).step few steps
    rw [claims_append] at few
    omega
  · exact few

theorem run_begun (created : new initial now = some handle)
    (run : Run step (fun _ _ => True) handle events last) : Begun events last := by
  apply run.invariant Begun
  · exact begun_new created
  · exact fun begun _ steps => begun.step steps

theorem run_linearizable (created : new initial now = some handle)
    (run : Run step (fun _ _ => True) handle events last) (few : claims events < 2 ^ 63) :
    Linearizable initial events last := by
  have coherent := run_coherent created run few
  constructor
  · exact coherent.snapshot_eq
  · exact coherent.monotone
  · exact (run_begun created run).published
  · exact coherent.revisions
  · exact coherent.counts.1
  · exact coherent.counts.2

end Runs

/-- A reader begins before an update, and has to read again. -/
def retriedEvents : List (TransformEvent Nat Bool) :=
  [[.beginUpdate true ⟨⟨0x40000000, 0, 0⟩, 1⟩], List.replicate 4 (.advance true),
    [.snapshot true 0 ⟨0x3F800000, 0, 0⟩, .advance true, .beginSnapshot false],
    List.replicate 3 (.advance false), [.claim true], List.replicate 4 (.advance true),
    [.publish true 1 ⟨0x40000000, 0, 0⟩], List.replicate 6 (.advance false),
    [.snapshot false 1 ⟨0x40000000, 0, 0⟩]].flatten

theorem run_linearizable_retried :
    ∃ handle last : RasterCompositorTransformHandle Nat Bool,
      Run step (fun _ _ => True) handle retriedEvents last ∧
        Linearizable ⟨0x3F800000, 0, 0⟩ retriedEvents last := by
  have valid : RasterCompositorTransform.ofParts 0x3F800000 0 0 = some ⟨0x3F800000, 0, 0⟩ := by
    decide
  have runs : (retriedEvents.foldlM step
      ⟨.new ⟨0x3F800000, 0, 0⟩ 0, fun _ => .idle⟩).isSome := by
    decide +kernel
  rcases Option.isSome_iff_exists.mp runs with ⟨last, runs⟩
  exact ⟨_, last, .of_foldlM runs,
    run_linearizable (congrArg (Option.map _) valid) (.of_foldlM runs) (by decide)⟩

end RasterCompositorTransformHandle

end Gpui
