import Gpui.Library.Transition

/-!
# The metadata of command buffers

The renderer thread registers what an event of the trace says about a command buffer before
it commits the buffer.  The callbacks of the buffer run on other threads: they copy what is
registered under the buffer's key into their own event, and remove it at the end.

A slot is chosen by the number of the frame and may be taken again while a callback reads it.
The reader looks at the key before it reads the fields and again afterwards.  A buffer's key is
an address, which the next buffer may have as soon as the callbacks are done.

Every operation on an atomic is one step, and the operations are sequentially consistent.
`E` is what an event holds that the table does not keep.
-/

namespace Gpui

open Gpui.Library

abbrev frameTraceCommandMetadataSlots : Nat := 64
abbrev frameTraceCommandMetadataFields : Nat := 25

structure PresentationToken where
  runIdHash : UInt64
  inputSequence : UInt64
  snapshotGeneration : UInt64
  canvasRenderGeneration : UInt64
deriving DecidableEq, Repr, Inhabited

/-- The fields of an event that the table keeps. -/
structure CommandMetadata where
  inputSequenceId : UInt64
  logicalFrameId : UInt64
  gpuiWindowFrameId : UInt64
  rendererInstanceId : UInt64
  rendererFrameId : UInt64
  drawableId : UInt64
  presentationToken : Option PresentationToken
  displayId : UInt64
  displayCurrentTimeNs : UInt64
  displayRefreshPeriodNs : UInt64
  sceneBuildDisplayTickSequence : UInt64
  sceneBuildTargetDisplayTimeNs : UInt64
  presentationDisplayTickSequence : UInt64
  presentationTargetDisplayTimeNs : UInt64
  coalescedDisplayTickCount : UInt64
  flags : UInt64
  displayCurrentHostTimeRaw : UInt64
  displayOutputHostTimeRaw : UInt64
  sceneBuildTickFlags : UInt64
  presentationTickFlags : UInt64
  commandBufferId : UInt64
deriving DecidableEq, Repr

/-- An event of the trace, as far as the table is concerned. -/
structure CommandEvent (E : Type) where
  metadata : CommandMetadata
  others : E
deriving DecidableEq, Repr

namespace CommandMetadata

/-- What `register` stores, field by field. -/
def toFields (self : CommandMetadata) : Fin frameTraceCommandMetadataFields → UInt64 :=
  let token := self.presentationToken.getD default
  ![self.inputSequenceId,
    self.logicalFrameId,
    self.gpuiWindowFrameId,
    self.rendererInstanceId,
    self.rendererFrameId,
    self.drawableId,
    if self.presentationToken.isSome then 1 else 0,
    token.runIdHash,
    token.inputSequence,
    token.snapshotGeneration,
    token.canvasRenderGeneration,
    self.displayId,
    self.displayCurrentTimeNs,
    self.displayRefreshPeriodNs,
    self.sceneBuildDisplayTickSequence,
    self.sceneBuildTargetDisplayTimeNs,
    self.presentationDisplayTickSequence,
    self.presentationTargetDisplayTimeNs,
    self.coalescedDisplayTickCount,
    self.flags,
    self.displayCurrentHostTimeRaw,
    self.displayOutputHostTimeRaw,
    self.sceneBuildTickFlags,
    self.presentationTickFlags,
    self.commandBufferId]

/-- What `populate` makes of the fields. -/
def ofFields (fields : Fin frameTraceCommandMetadataFields → UInt64) : CommandMetadata where
  inputSequenceId := fields 0
  logicalFrameId := fields 1
  gpuiWindowFrameId := fields 2
  rendererInstanceId := fields 3
  rendererFrameId := fields 4
  drawableId := fields 5
  presentationToken :=
    if fields 6 ≠ 0 then
      some {
        runIdHash := fields 7
        inputSequence := fields 8
        snapshotGeneration := fields 9
        canvasRenderGeneration := fields 10 }
    else none
  displayId := fields 11
  displayCurrentTimeNs := fields 12
  displayRefreshPeriodNs := fields 13
  sceneBuildDisplayTickSequence := fields 14
  sceneBuildTargetDisplayTimeNs := fields 15
  presentationDisplayTickSequence := fields 16
  presentationTargetDisplayTimeNs := fields 17
  coalescedDisplayTickCount := fields 18
  flags := fields 19
  displayCurrentHostTimeRaw := fields 20
  displayOutputHostTimeRaw := fields 21
  sceneBuildTickFlags := fields 22
  presentationTickFlags := fields 23
  commandBufferId := fields 24

/-- Nothing is lost on the way through the fields, also whether there is a token. -/
theorem ofFields_toFields (self : CommandMetadata) : ofFields self.toFields = self := by
  rcases self with ⟨_, _, _, _, _, _, token, _, _, _, _, _, _, _, _, _, _, _, _, _, _⟩
  cases token with
  | none => rfl
  | some token => rfl

end CommandMetadata

structure FrameTraceCommandMetadataSlot where
  commandBufferKey : UInt64
  fields : Fin frameTraceCommandMetadataFields → UInt64

structure FrameTraceCommandMetadataTable where
  slots : Fin frameTraceCommandMetadataSlots → FrameTraceCommandMetadataSlot

/-- Where a call of `register` is: it has still to clear the key, or has stored so many
fields. -/
inductive RegisterStep where
  | clear
  | store (count : Nat)
deriving DecidableEq, Repr

/-- Where a call of `populate` is: it looks at the key of a slot, or has read so many fields of
the slot it found. -/
inductive PopulateStep where
  | find (ix : Nat)
  | read (slot : Fin frameTraceCommandMetadataSlots) (count : Nat)
      (values : Fin frameTraceCommandMetadataFields → UInt64)

namespace FrameTraceCommandMetadataTable

def new : FrameTraceCommandMetadataTable :=
  ⟨fun _ => ⟨0, fun _ => 0⟩⟩

def slotIndex (rendererFrameId : UInt64) : Fin frameTraceCommandMetadataSlots :=
  ⟨rendererFrameId.toNat % frameTraceCommandMetadataSlots, Nat.mod_lt _ (by decide)⟩

def setSlot (self : FrameTraceCommandMetadataTable) (ix : Fin frameTraceCommandMetadataSlots)
    (slot : FrameTraceCommandMetadataSlot) : FrameTraceCommandMetadataTable :=
  ⟨Function.update self.slots ix slot⟩

def storeKey (self : FrameTraceCommandMetadataTable) (ix : Fin frameTraceCommandMetadataSlots)
    (key : UInt64) : FrameTraceCommandMetadataTable :=
  self.setSlot ix { self.slots ix with commandBufferKey := key }

def storeField (self : FrameTraceCommandMetadataTable) (ix : Fin frameTraceCommandMetadataSlots)
    (field : Fin frameTraceCommandMetadataFields) (value : UInt64) :
    FrameTraceCommandMetadataTable :=
  let slot := self.slots ix
  self.setSlot ix { slot with fields := Function.update slot.fields field value }

/-- The next operation of `register`, and where it is afterwards, unless it returns. -/
def register (self : FrameTraceCommandMetadataTable) (commandBufferKey : UInt64)
    (metadata : CommandMetadata) :
    RegisterStep → FrameTraceCommandMetadataTable × Option RegisterStep
  | .clear => (self.storeKey (slotIndex metadata.rendererFrameId) 0, some (.store 0))
  | .store count =>
      if more : count < frameTraceCommandMetadataFields then
        (self.storeField (slotIndex metadata.rendererFrameId) ⟨count, more⟩
          (metadata.toFields ⟨count, more⟩), some (.store (count + 1)))
      else (self.storeKey (slotIndex metadata.rendererFrameId) commandBufferKey, none)

/-- The next operation of `populate`: where it is afterwards, or the event when it returns. -/
def populate {E : Type} (self : FrameTraceCommandMetadataTable) (commandBufferKey : UInt64)
    (event : CommandEvent E) : PopulateStep → PopulateStep ⊕ CommandEvent E
  | .find ix =>
      if more : ix < frameTraceCommandMetadataSlots then
        if (self.slots ⟨ix, more⟩).commandBufferKey = commandBufferKey then
          .inl (.read ⟨ix, more⟩ 0 fun _ => 0)
        else .inl (.find (ix + 1))
      else .inr event
  | .read slot count values =>
      if more : count < frameTraceCommandMetadataFields then
        .inl (.read slot (count + 1)
          (Function.update values ⟨count, more⟩ ((self.slots slot).fields ⟨count, more⟩)))
      else if (self.slots slot).commandBufferKey ≠ commandBufferKey then .inr event
      else .inr { event with metadata := .ofFields values }

/-- The `compare_exchange` of `remove` at a slot. -/
def remove (self : FrameTraceCommandMetadataTable) (commandBufferKey : UInt64)
    (ix : Fin frameTraceCommandMetadataSlots) : FrameTraceCommandMetadataTable :=
  if (self.slots ix).commandBufferKey = commandBufferKey then self.storeKey ix 0 else self

variable (self : FrameTraceCommandMetadataTable) (ix : Fin frameTraceCommandMetadataSlots)

theorem slots_setSlot_self (slot : FrameTraceCommandMetadataSlot) :
    (self.setSlot ix slot).slots ix = slot :=
  Function.update_self ..

theorem slots_setSlot_of_ne (slot : FrameTraceCommandMetadataSlot)
    {other : Fin frameTraceCommandMetadataSlots} (different : other ≠ ix) :
    (self.setSlot ix slot).slots other = self.slots other :=
  Function.update_of_ne different _ _

/-- A removal takes its key from the slot, and nothing from any other. -/
theorem slots_remove (key : UInt64) (slot : Fin frameTraceCommandMetadataSlots) :
    (self.remove key ix).slots slot = self.slots slot ∨
      (self.slots slot).commandBufferKey = key ∧
        (self.remove key ix).slots slot = { self.slots slot with commandBufferKey := 0 } := by
  by_cases hasKey : (self.slots ix).commandBufferKey = key
  · have removes : self.remove key ix = self.storeKey ix 0 := if_pos hasKey
    rw [removes]
    by_cases same : slot = ix
    · subst same
      right
      constructor
      · exact hasKey
      · rw [storeKey, slots_setSlot_self]
    · exact .inl (self.slots_setSlot_of_ne ix _ same)
  · have keeps : self.remove key ix = self := if_neg hasKey
    rw [keeps]
    exact .inl rfl

/-- Afterwards the slot does not have the key. -/
theorem remove_clears {key : UInt64} (nonzero : key ≠ 0) :
    ((self.remove key ix).slots ix).commandBufferKey ≠ key := by
  by_cases hasKey : (self.slots ix).commandBufferKey = key
  · have removes : self.remove key ix = self.storeKey ix 0 := if_pos hasKey
    rw [removes, storeKey, slots_setSlot_self]
    exact Ne.symm nonzero
  · have keeps : self.remove key ix = self := if_neg hasKey
    rw [keeps]
    exact hasKey

end FrameTraceCommandMetadataTable

/-! ## The threads -/

/-- The call of `register` that the renderer thread is in. -/
structure RegisterCall where
  key : UInt64
  metadata : CommandMetadata
  pc : RegisterStep
deriving DecidableEq, Repr

/-- A call of a callback.  `covers` says that a registration under the key was complete and
not removed when the call of `remove` began; no code reads it. -/
inductive CallbackCall (E : Type) where
  | populate (key : UInt64) (event : CommandEvent E) (pc : PopulateStep)
  | remove (key : UInt64) (covers : Bool) (ix : Nat)

def CallbackCall.key {E : Type} : CallbackCall E → UInt64
  | .populate key _ _ => key
  | .remove key _ _ => key

structure FrameTraceCommands (E : Type) where
  table : FrameTraceCommandMetadataTable
  renderer : Option RegisterCall
  /-- The calls of callbacks that have not returned. -/
  calls : Nat → Option (CallbackCall E)
  /-- What the latest call of `register` with a key was given, and whether a call of `remove`
  for it has yet to return; no code reads these. -/
  registered : UInt64 → Option CommandMetadata
  outstanding : UInt64 → Bool

inductive CommandStep (E : Type) where
  /-- The renderer thread calls `register`. -/
  | register (key : UInt64) (event : CommandEvent E)
  /-- The renderer thread does its next operation. -/
  | advanceRegister
  | populate (number : Nat) (key : UInt64) (event : CommandEvent E)
  | remove (number : Nat) (key : UInt64)
  /-- The callback of this number does its next operation. -/
  | advance (number : Nat)

namespace FrameTraceCommands

open FrameTraceCommandMetadataTable (slotIndex storeKey storeField slots_setSlot_self
  slots_setSlot_of_ne)

variable {E : Type}

def new : FrameTraceCommands E where
  table := .new
  renderer := none
  calls _ := none
  registered _ := none
  outstanding _ := false

def isRegistering (self : FrameTraceCommands E) (key : UInt64) : Bool :=
  self.renderer.any fun call => call.key = key

def setCall (self : FrameTraceCommands E) (number : Nat) (call : Option (CallbackCall E)) :
    FrameTraceCommands E :=
  { self with calls := Function.update self.calls number call }

def register (self : FrameTraceCommands E) (key : UInt64) (metadata : CommandMetadata) :
    FrameTraceCommands E :=
  { self with
    renderer := some ⟨key, metadata, .clear⟩
    registered := Function.update self.registered key (some metadata)
    outstanding := Function.update self.outstanding key true }

def advanceRegister (self : FrameTraceCommands E) (call : RegisterCall) : FrameTraceCommands E :=
  let (table, next) := self.table.register call.key call.metadata call.pc
  { self with table, renderer := next.map fun pc => { call with pc } }

/-- The removal returns, and its key may be registered again. -/
def removed (self : FrameTraceCommands E) (key : UInt64) (covers : Bool) : FrameTraceCommands E :=
  if covers then { self with outstanding := Function.update self.outstanding key false }
  else self

/-- A callback does its next operation.  A call of `populate` that returns shows its event. -/
def advance (self : FrameTraceCommands E) (number : Nat) :
    CallbackCall E → FrameTraceCommands E × Option (CommandEvent E)
  | .populate key event pc =>
      match self.table.populate key event pc with
      | .inl pc => (self.setCall number (some (.populate key event pc)), none)
      | .inr returned => (self.setCall number none, some returned)
  | .remove key covers ix =>
      if more : ix < frameTraceCommandMetadataSlots then
        ({ self with table := self.table.remove key ⟨ix, more⟩ }.setCall number
          (some (.remove key covers (ix + 1))), none)
      else ((self.removed key covers).setCall number none, none)

def step (self : FrameTraceCommands E) :
    CommandStep E → Option (FrameTraceCommands E × Option (CommandEvent E))
  | .register key event =>
      if self.renderer.isNone then some (self.register key event.metadata, none) else none
  | .advanceRegister => self.renderer.map fun call => (self.advanceRegister call, none)
  | .populate number key event =>
      if (self.calls number).isNone then
        some (self.setCall number (some (.populate key event (.find 0))), none)
      else none
  | .remove number key =>
      if (self.calls number).isNone then
        let covers := self.outstanding key && !self.isRegistering key
        some (self.setCall number (some (.remove key covers 0)), none)
      else none
  | .advance number => (self.calls number).map fun call => self.advance number call

def next (self : FrameTraceCommands E) (event : CommandStep E) : Option (FrameTraceCommands E) :=
  (self.step event).map Prod.fst

/-- Keys are not zero, and one is registered again only when its earlier registration has been
removed and no call with that key is under way. -/
def Allowed (self : FrameTraceCommands E) : CommandStep E → Prop
  | .register key _ =>
      key ≠ 0 ∧ (self.registered key ≠ none →
        self.outstanding key = false ∧
          ∀ number call, self.calls number = some call → call.key ≠ key)
  | .populate _ key _ => key ≠ 0
  | .remove _ key => key ≠ 0
  | _ => True

/-- A call of `populate` that returns leaves its event as it was or gives it all that the
latest registration under its key says, and a call of `remove` never touches a slot with
another key. -/
structure Untorn (commands : FrameTraceCommands E) : Prop where
  populate : ∀ {number key event pc after returned},
    commands.calls number = some (.populate key event pc) →
      commands.step (.advance number) = some (after, some returned) →
        returned = event ∨ ∃ metadata, commands.registered key = some metadata ∧
          returned = { event with metadata }
  remove : ∀ {number key covers ix after returned},
    commands.calls number = some (.remove key covers ix) →
      commands.step (.advance number) = some (after, returned) →
        ∀ slot, (commands.table.slots slot).commandBufferKey ≠ key →
          after.table.slots slot = commands.table.slots slot

/-! ## What the table holds -/

/-- The latest registration under a key is complete. -/
def Settled (self : FrameTraceCommands E) (key : UInt64) : Prop :=
  self.registered key ≠ none ∧ self.isRegistering key = false

/-- A slot with a key holds what was registered under it last. -/
def Entry (self : FrameTraceCommands E) (slot : FrameTraceCommandMetadataSlot) : Prop :=
  slot.commandBufferKey ≠ 0 →
    self.isRegistering slot.commandBufferKey = false ∧
      self.outstanding slot.commandBufferKey = true ∧
      self.registered slot.commandBufferKey = some (.ofFields slot.fields)

/-- The renderer works on a slot without a key, whose first fields are stored. -/
structure Registering (commands : FrameTraceCommands E) (call : RegisterCall) : Prop where
  key : call.key ≠ 0
  registered : commands.registered call.key = some call.metadata
  outstanding : commands.outstanding call.key = true
  stored : ∀ {count}, call.pc = .store count →
    let slot := commands.table.slots (slotIndex call.metadata.rendererFrameId)
    slot.commandBufferKey = 0 ∧
      ∀ field : Fin frameTraceCommandMetadataFields, field < count →
        slot.fields field = call.metadata.toFields field

/-- What a callback has read is what the slot still holds if the slot has the same key; and a
removal that covers the latest registration leaves none of it behind. -/
def Accounted (self : FrameTraceCommands E) : CallbackCall E → Prop
  | .populate key _ (.find _) => key ≠ 0
  | .populate key _ (.read slot count values) =>
      key ≠ 0 ∧ self.Settled key ∧
        ((self.table.slots slot).commandBufferKey = key →
          ∀ field : Fin frameTraceCommandMetadataFields, field < count →
            values field = (self.table.slots slot).fields field)
  | .remove key covers ix =>
      key ≠ 0 ∧ (covers = true → self.Settled key ∧
        ∀ slot : Fin frameTraceCommandMetadataSlots, slot < ix →
          (self.table.slots slot).commandBufferKey ≠ key)

structure Coherent (commands : FrameTraceCommands E) : Prop where
  entry : ∀ slot, commands.Entry (commands.table.slots slot)
  renderer : ∀ {call}, commands.renderer = some call → commands.Registering call
  calls : ∀ {number call}, commands.calls number = some call → commands.Accounted call
  outstanding : ∀ {key}, commands.outstanding key = true → commands.registered key ≠ none

variable {self before after : FrameTraceCommands E}

theorem coherent_new : (new : FrameTraceCommands E).Coherent where
  entry slot hasKey := absurd rfl hasKey
  renderer isCall := by cases isCall
  calls isCall := by cases isCall
  outstanding isOutstanding := by cases isOutstanding

theorem entry_of_key_eq_zero {slot : FrameTraceCommandMetadataSlot}
    (noKey : slot.commandBufferKey = 0) : self.Entry slot :=
  fun hasKey => absurd noKey hasKey

theorem isRegistering_of_renderer {call : RegisterCall} (isCall : self.renderer = some call)
    (key : UInt64) : self.isRegistering key = decide (call.key = key) := by
  rw [isRegistering, isCall, Option.any_some]

theorem Accounted.key_ne {call : CallbackCall E} (accounted : self.Accounted call) :
    call.key ≠ 0 := by
  match call, accounted with
  | .populate _ _ (.find _), nonzero => exact nonzero
  | .populate _ _ (.read _ _ _), ⟨nonzero, _⟩ => exact nonzero
  | .remove _ _ _, ⟨nonzero, _⟩ => exact nonzero

theorem Coherent.settled (coherent : self.Coherent)
    {slot : Fin frameTraceCommandMetadataSlots} {key : UInt64} (nonzero : key ≠ 0)
    (hasKey : (self.table.slots slot).commandBufferKey = key) : self.Settled key := by
  subst hasKey
  rcases coherent.entry slot nonzero with ⟨idle, _, registered⟩
  constructor
  · rw [registered]
    exact Option.some_ne_none _
  · exact idle

/-- A callback keeps its account where the latest registration under its key stays complete
and no slot is given that key. -/
theorem Accounted.mono {call : CallbackCall E} (accounted : before.Accounted call)
    (settled : before.Settled call.key → after.Settled call.key)
    (slots : before.Settled call.key → ∀ slot, after.table.slots slot = before.table.slots slot ∨
      (after.table.slots slot).commandBufferKey ≠ call.key) : after.Accounted call := by
  match call, accounted with
  | .populate key event (.find ix), nonzero => exact nonzero
  | .populate key event (.read slot count values), ⟨nonzero, isSettled, same⟩ =>
      constructor
      · exact nonzero
      · constructor
        · exact settled isSettled
        · intro hasKey
          rcases slots isSettled slot with kept | other
          · rw [kept] at hasKey ⊢
            exact same hasKey
          · exact absurd hasKey other
  | .remove key covers ix, ⟨nonzero, done⟩ =>
      constructor
      · exact nonzero
      · intro isCovering
        rcases done isCovering with ⟨isSettled, gone⟩
        constructor
        · exact settled isSettled
        · intro slot below
          rcases slots isSettled slot with kept | other
          · rw [kept]
            exact gone slot below
          · exact other

/-- The table changes where a slot gets an entry, and none whose registration was complete. -/
theorem Coherent.shift (coherent : before.Coherent) (calls : after.calls = before.calls)
    (registered : after.registered = before.registered)
    (outstanding : after.outstanding = before.outstanding)
    (idle : ∀ key, before.isRegistering key = false → after.isRegistering key = false)
    (slots : ∀ slot, after.table.slots slot = before.table.slots slot ∨
      after.Entry (after.table.slots slot) ∧ ∀ key, key ≠ 0 → before.isRegistering key = false →
        (after.table.slots slot).commandBufferKey ≠ key)
    (renderer : ∀ {call}, after.renderer = some call → after.Registering call) :
    after.Coherent where
  entry slot := by
    rcases slots slot with kept | ⟨entry, _⟩
    · intro hasKey
      rw [kept] at hasKey ⊢
      rw [registered, outstanding]
      rcases coherent.entry slot hasKey with ⟨isIdle, isEntry⟩
      exact ⟨idle _ isIdle, isEntry⟩
    · exact entry
  renderer := renderer
  calls {number call} isCall := by
    rw [calls] at isCall
    have accounted := coherent.calls isCall
    apply accounted.mono
    · rintro ⟨isRegistered, isIdle⟩
      rw [Settled, registered]
      exact ⟨isRegistered, idle _ isIdle⟩
    · rintro ⟨_, isIdle⟩ slot
      rcases slots slot with kept | ⟨_, other⟩
      · exact .inl kept
      · exact .inr (other _ accounted.key_ne isIdle)
  outstanding {key} isOutstanding := by
    rw [outstanding] at isOutstanding
    rw [registered]
    exact coherent.outstanding isOutstanding

theorem Coherent.setCall (coherent : self.Coherent) {number : Nat}
    {next : Option (CallbackCall E)} (accounted : ∀ call, next = some call → self.Accounted call) :
    (self.setCall number next).Coherent where
  entry := coherent.entry
  renderer isCall :=
    let ⟨key, registered, outstanding, stored⟩ := coherent.renderer isCall
    ⟨key, registered, outstanding, stored⟩
  calls {other call} isCall := by
    have kept : self.Accounted call := by
      change Function.update self.calls number next other = some call at isCall
      by_cases same : other = number
      · rw [same, Function.update_self] at isCall
        exact accounted call isCall
      · rw [Function.update_of_ne same] at isCall
        exact coherent.calls isCall
    apply kept.mono
    · exact fun settled => settled
    · exact fun _ slot => .inl rfl
  outstanding := coherent.outstanding

theorem Coherent.register (coherent : self.Coherent) {key : UInt64} (metadata : CommandMetadata)
    (nonzero : key ≠ 0)
    (free : self.registered key ≠ none → self.outstanding key = false ∧
      ∀ number call, self.calls number = some call → call.key ≠ key) :
    (self.register key metadata).Coherent := by
  have isRegistering (other : UInt64) (different : other ≠ key) :
      (self.register key metadata).isRegistering other = false :=
    decide_eq_false (Ne.symm different)
  have registered (other : UInt64) (different : other ≠ key) :
      (self.register key metadata).registered other = self.registered other :=
    Function.update_of_ne different _ _
  have outstanding (other : UInt64) (different : other ≠ key) :
      (self.register key metadata).outstanding other = self.outstanding other :=
    Function.update_of_ne different _ _
  constructor
  · intro slot hasKey
    change (self.table.slots slot).commandBufferKey ≠ 0 at hasKey
    rcases coherent.entry slot hasKey with ⟨_, isOutstanding, isRegistered⟩
    have different : (self.table.slots slot).commandBufferKey ≠ key := by
      intro same
      rw [same] at isOutstanding
      have notOutstanding := (free (coherent.outstanding isOutstanding)).1
      exact Bool.false_ne_true (notOutstanding.symm.trans isOutstanding)
    constructor
    · exact isRegistering _ different
    · constructor
      · exact (outstanding _ different).trans isOutstanding
      · exact (registered _ different).trans isRegistered
  · intro call isCall
    cases isCall
    constructor
    · exact nonzero
    · exact Function.update_self ..
    · exact Function.update_self ..
    · intro count isStore
      cases isStore
  · intro number call isCall
    apply (coherent.calls isCall).mono
    · rintro ⟨isRegistered, _⟩
      have different : call.key ≠ key := by
        intro same
        rw [same] at isRegistered
        exact (free isRegistered).2 number call isCall same
      constructor
      · rw [registered _ different]
        exact isRegistered
      · exact isRegistering _ different
    · exact fun _ slot => .inl rfl
  · intro other isOutstanding
    by_cases same : other = key
    · subst same
      have isRegistered : (self.register other metadata).registered other = some metadata :=
        Function.update_self ..
      rw [isRegistered]
      exact Option.some_ne_none _
    · rw [outstanding _ same] at isOutstanding
      rw [registered _ same]
      exact coherent.outstanding isOutstanding

/-- One more field is copied. -/
theorem agree_update {size count : Nat} {values fields : Fin size → UInt64}
    (agree : ∀ field : Fin size, field < count → values field = fields field)
    (more : count < size) {field : Fin size} (below : field < count + 1) :
    Function.update values ⟨count, more⟩ (fields ⟨count, more⟩) field = fields field := by
  rcases Nat.lt_succ_iff_lt_or_eq.mp below with earlier | last
  · have different : field ≠ ⟨count, more⟩ := fun same => earlier.ne (congrArg Fin.val same)
    rw [Function.update_of_ne different]
    exact agree field earlier
  · have isLast : field = ⟨count, more⟩ := Fin.ext last
    rw [isLast]
    exact Function.update_self ..

theorem isRegistering_eq_false_iff {call : RegisterCall}
    (isCall : self.renderer = some call) {key : UInt64} :
    self.isRegistering key = false ↔ call.key ≠ key := by
  rw [isRegistering_of_renderer isCall, decide_eq_false_iff_not]

/-- The renderer works on its slot, which has no key then. -/
theorem Coherent.write (coherent : self.Coherent) {call : RegisterCall}
    (isCall : self.renderer = some call) {slot : FrameTraceCommandMetadataSlot} {count : Nat}
    (noKey : slot.commandBufferKey = 0)
    (stored : ∀ field : Fin frameTraceCommandMetadataFields, field < count →
      slot.fields field = call.metadata.toFields field) :
    ({ self with
      table := self.table.setSlot (slotIndex call.metadata.rendererFrameId) slot
      renderer := some { call with pc := .store count } } : FrameTraceCommands E).Coherent := by
  rcases coherent.renderer isCall with ⟨nonzero, registered, outstanding, _⟩
  apply coherent.shift
  · rfl
  · rfl
  · rfl
  · intro other isIdle
    rw [isRegistering_eq_false_iff isCall] at isIdle
    exact decide_eq_false isIdle
  · intro ix
    by_cases same : ix = slotIndex call.metadata.rendererFrameId
    · right
      subst same
      rw [slots_setSlot_self]
      constructor
      · exact entry_of_key_eq_zero noKey
      · intro other otherNonzero _
        exact noKey.trans_ne otherNonzero.symm
    · exact .inl (slots_setSlot_of_ne _ _ _ same)
  · intro next isNext
    cases isNext
    constructor
    · exact nonzero
    · exact registered
    · exact outstanding
    · intro further isStore
      cases isStore
      rw [slots_setSlot_self]
      exact ⟨noKey, stored⟩

/-- The renderer gives its slot the key when all fields are stored. -/
theorem Coherent.publish (coherent : self.Coherent) {call : RegisterCall} {count : Nat}
    (isCall : self.renderer = some call) (isStore : call.pc = .store count)
    (all : frameTraceCommandMetadataFields ≤ count) :
    ({ self with
      table := self.table.storeKey (slotIndex call.metadata.rendererFrameId) call.key
      renderer := none } : FrameTraceCommands E).Coherent := by
  rcases coherent.renderer isCall with ⟨_, registered, outstanding, stored⟩
  have fields : (self.table.slots (slotIndex call.metadata.rendererFrameId)).fields =
      call.metadata.toFields := by
    funext field
    exact (stored isStore).2 field (field.isLt.trans_le all)
  apply coherent.shift
  · rfl
  · rfl
  · rfl
  · exact fun _ _ => rfl
  · intro ix
    by_cases same : ix = slotIndex call.metadata.rendererFrameId
    · right
      subst same
      rw [storeKey, slots_setSlot_self]
      constructor
      · intro _
        constructor
        · rfl
        · constructor
          · exact outstanding
          · rw [fields, CommandMetadata.ofFields_toFields]
            exact registered
      · intro other _ isIdle
        exact (isRegistering_eq_false_iff isCall).mp isIdle
    · exact .inl (slots_setSlot_of_ne _ _ _ same)
  · intro next isNext
    cases isNext

theorem Coherent.advanceRegister (coherent : self.Coherent) {call : RegisterCall}
    (isCall : self.renderer = some call) : (self.advanceRegister call).Coherent := by
  have registering := coherent.renderer isCall
  rcases call with ⟨key, metadata, pc⟩
  cases pc with
  | clear =>
      apply coherent.write isCall
      · rfl
      · intro field below
        exact absurd below (Nat.not_lt_zero _)
  | store count =>
      rcases registering.stored rfl with ⟨noKey, fields⟩
      by_cases more : count < frameTraceCommandMetadataFields
      · rw [FrameTraceCommands.advanceRegister, FrameTraceCommandMetadataTable.register,
          dif_pos more]
        apply coherent.write isCall
        · exact noKey
        · intro field below
          exact agree_update fields more below
      · rw [FrameTraceCommands.advanceRegister, FrameTraceCommandMetadataTable.register,
          dif_neg more]
        exact coherent.publish isCall rfl (Nat.le_of_not_lt more)

/-- A callback takes its key from a slot. -/
theorem Coherent.remove (coherent : self.Coherent) (key : UInt64)
    (ix : Fin frameTraceCommandMetadataSlots) :
    ({ self with table := self.table.remove key ix } : FrameTraceCommands E).Coherent := by
  apply coherent.shift
  · rfl
  · rfl
  · rfl
  · exact fun _ isIdle => isIdle
  · intro slot
    rcases self.table.slots_remove ix key slot with kept | ⟨_, erased⟩
    · exact .inl kept
    · right
      change self.Entry ((self.table.remove key ix).slots slot) ∧ _
      rw [erased]
      constructor
      · exact entry_of_key_eq_zero rfl
      · exact fun other nonzero _ => nonzero.symm
  · intro call isCall
    rcases coherent.renderer isCall with ⟨nonzero, registered, outstanding, stored⟩
    constructor
    · exact nonzero
    · exact registered
    · exact outstanding
    · intro count isStore
      rcases stored isStore with ⟨noKey, fields⟩
      rcases self.table.slots_remove ix key (slotIndex call.metadata.rendererFrameId) with
        kept | ⟨_, erased⟩
      · rw [kept]
        exact ⟨noKey, fields⟩
      · rw [erased]
        exact ⟨rfl, fields⟩

/-- The removal of what was registered last under a key returns. -/
theorem Coherent.removed (coherent : self.Coherent) {key : UInt64} {covers : Bool}
    (gone : covers = true → self.isRegistering key = false ∧
      ∀ slot, (self.table.slots slot).commandBufferKey ≠ key) :
    (self.removed key covers).Coherent := by
  cases covers with
  | false => exact coherent
  | true =>
      rcases gone rfl with ⟨idle, gone⟩
      have outstanding (other : UInt64) (different : other ≠ key) :
          (self.removed key true).outstanding other = self.outstanding other :=
        Function.update_of_ne different _ _
      constructor
      · intro slot hasKey
        rcases coherent.entry slot hasKey with ⟨isIdle, isOutstanding, registered⟩
        constructor
        · exact isIdle
        · constructor
          · exact (outstanding _ (gone slot)).trans isOutstanding
          · exact registered
      · intro call isCall
        rcases coherent.renderer isCall with ⟨nonzero, registered, isOutstanding, stored⟩
        constructor
        · exact nonzero
        · exact registered
        · exact (outstanding _ ((isRegistering_eq_false_iff isCall).mp idle)).trans isOutstanding
        · exact stored
      · intro number call isCall
        apply (coherent.calls isCall).mono
        · exact fun settled => settled
        · exact fun _ slot => .inl rfl
      · intro other isOutstanding
        by_cases same : other = key
        · rw [same] at isOutstanding
          have notOutstanding : (self.removed key true).outstanding key = false :=
            Function.update_self ..
          exact absurd (notOutstanding.symm.trans isOutstanding) Bool.false_ne_true
        · exact coherent.outstanding ((outstanding other same).symm.trans isOutstanding)

/-! ## What callbacks do -/

/-- The next operation of `populate` gives the event back as it was or with what was registered
last, or the callback keeps its account. -/
theorem Coherent.populate (coherent : self.Coherent) {key : UInt64} {event : CommandEvent E}
    {pc : PopulateStep} (accounted : self.Accounted (.populate key event pc)) :
    (∃ next, self.table.populate key event pc = .inl next ∧
      self.Accounted (.populate key event next)) ∨
    self.table.populate key event pc = .inr event ∨
    ∃ metadata, self.registered key = some metadata ∧
      self.table.populate key event pc = .inr { event with metadata } := by
  cases pc with
  | find ix =>
      rw [FrameTraceCommandMetadataTable.populate]
      by_cases more : ix < frameTraceCommandMetadataSlots
      · left
        rw [dif_pos more]
        by_cases hasKey : (self.table.slots ⟨ix, more⟩).commandBufferKey = key
        · rw [if_pos hasKey]
          apply Exists.intro _
          constructor
          · rfl
          · constructor
            · exact accounted
            · constructor
              · exact coherent.settled accounted hasKey
              · intro _ field below
                exact absurd below (Nat.not_lt_zero _)
        · rw [if_neg hasKey]
          exact ⟨_, rfl, accounted⟩
      · rw [dif_neg more]
        exact .inr (.inl rfl)
  | read slot count values =>
      rcases accounted with ⟨nonzero, settled, same⟩
      rw [FrameTraceCommandMetadataTable.populate]
      by_cases more : count < frameTraceCommandMetadataFields
      · left
        rw [dif_pos more]
        apply Exists.intro _
        constructor
        · rfl
        · constructor
          · exact nonzero
          · constructor
            · exact settled
            · intro hasKey field below
              exact agree_update (same hasKey) more below
      · right
        rw [dif_neg more]
        by_cases hasKey : (self.table.slots slot).commandBufferKey = key
        · right
          have read : values = (self.table.slots slot).fields := by
            funext field
            exact same hasKey field (field.isLt.trans_le (Nat.le_of_not_lt more))
          have hasAnyKey : (self.table.slots slot).commandBufferKey ≠ 0 := hasKey.trans_ne nonzero
          rcases coherent.entry slot hasAnyKey with ⟨_, _, registered⟩
          rw [hasKey, ← read] at registered
          rw [if_neg (not_not_intro hasKey)]
          exact ⟨_, registered, rfl⟩
        · rw [if_pos hasKey]
          exact .inl rfl

theorem Coherent.advance (coherent : self.Coherent) {number : Nat} {call : CallbackCall E}
    (isCall : self.calls number = some call) : (self.advance number call).1.Coherent := by
  have accounted := coherent.calls isCall
  cases call with
  | populate key event pc =>
      rcases coherent.populate accounted with ⟨next, moves, keeps⟩ | returns | ⟨_, _, returns⟩
      · rw [FrameTraceCommands.advance, moves]
        apply coherent.setCall
        intro call isNext
        cases isNext
        exact keeps
      · rw [FrameTraceCommands.advance, returns]
        apply coherent.setCall
        intro call isNext
        cases isNext
      · rw [FrameTraceCommands.advance, returns]
        apply coherent.setCall
        intro call isNext
        cases isNext
  | remove key covers ix =>
      rcases accounted with ⟨nonzero, gone⟩
      rw [FrameTraceCommands.advance]
      by_cases more : ix < frameTraceCommandMetadataSlots
      · rw [dif_pos more]
        apply (coherent.remove key ⟨ix, more⟩).setCall
        intro call isNext
        cases isNext
        constructor
        · exact nonzero
        · intro isCovering
          rcases gone isCovering with ⟨settled, gone⟩
          constructor
          · exact settled
          · intro slot below
            rcases Nat.lt_succ_iff_lt_or_eq.mp below with earlier | last
            · rcases self.table.slots_remove ⟨ix, more⟩ key slot with kept | ⟨hasKey, _⟩
              · rw [kept]
                exact gone slot earlier
              · exact absurd hasKey (gone slot earlier)
            · have isLast : slot = ⟨ix, more⟩ := Fin.ext last
              rw [isLast]
              exact self.table.remove_clears _ nonzero
      · rw [dif_neg more]
        apply Coherent.setCall
        · apply coherent.removed
          intro isCovering
          rcases gone isCovering with ⟨⟨_, idle⟩, gone⟩
          constructor
          · exact idle
          · intro slot
            exact gone slot (slot.isLt.trans_le (Nat.le_of_not_lt more))
        · intro call isNext
          cases isNext

theorem Coherent.next (coherent : self.Coherent) {event : CommandStep E}
    (may : self.Allowed event) (steps : self.next event = some after) : after.Coherent := by
  rcases Option.map_eq_some_iff.mp steps with ⟨⟨_, _⟩, moves, rfl⟩
  cases event with
  | register key event =>
      rcases (Option.ite_none_right_eq_some).mp moves with ⟨_, ⟨⟩⟩
      exact coherent.register event.metadata may.1 may.2
  | advanceRegister =>
      rcases Option.map_eq_some_iff.mp moves with ⟨call, isCall, ⟨⟩⟩
      exact coherent.advanceRegister isCall
  | populate number key event =>
      rcases (Option.ite_none_right_eq_some).mp moves with ⟨_, ⟨⟩⟩
      apply coherent.setCall
      intro call isNext
      cases isNext
      exact may
  | remove number key =>
      rcases (Option.ite_none_right_eq_some).mp moves with ⟨_, ⟨⟩⟩
      apply coherent.setCall
      intro call isNext
      cases isNext
      constructor
      · exact may
      · intro isCovering
        rcases Bool.and_eq_true_iff.mp isCovering with ⟨isOutstanding, idle⟩
        constructor
        · constructor
          · exact coherent.outstanding isOutstanding
          · simpa using idle
        · intro slot below
          exact absurd below (Nat.not_lt_zero _)
  | advance number =>
      rcases Option.map_eq_some_iff.mp moves with ⟨call, isCall, advances⟩
      have coherentNext := coherent.advance isCall
      rw [advances] at coherentNext
      exact coherentNext

theorem Coherent.untorn (coherent : self.Coherent) : self.Untorn := by
  constructor
  · intro number key event pc next returned isCall steps
    have advances : some (self.advance number (.populate key event pc)) =
        some (next, some returned) := by
      rw [step, isCall] at steps
      exact steps
    have accounted := coherent.calls isCall
    rw [FrameTraceCommands.advance] at advances
    rcases coherent.populate accounted with ⟨_, moves, _⟩ | same | ⟨metadata, registered, same⟩
    · rw [moves] at advances
      cases advances
    · rw [same] at advances
      cases advances
      exact .inl rfl
    · rw [same] at advances
      cases advances
      exact .inr ⟨metadata, registered, rfl⟩
  · intro number key covers ix next returned isCall steps slot other
    have advances : some (self.advance number (.remove key covers ix)) =
        some (next, returned) := by
      rw [step, isCall] at steps
      exact steps
    rw [FrameTraceCommands.advance] at advances
    by_cases more : ix < frameTraceCommandMetadataSlots
    · rw [dif_pos more] at advances
      cases advances
      rcases self.table.slots_remove ⟨ix, more⟩ key slot with kept | ⟨hasKey, _⟩
      · exact kept
      · exact absurd hasKey other
    · rw [dif_neg more] at advances
      cases advances
      cases covers with
      | false => rfl
      | true => rfl

/-- In any order of operations, metadata is copied whole and removed under its own key only. -/
theorem run_untorn {events : List (CommandStep E)}
    (run : Run next Allowed new events self) : self.Untorn := by
  have coherent : self.Coherent :=
    run.invariant (fun _ state => state.Coherent) coherent_new
      fun coherent may steps => coherent.next may steps
  exact coherent.untorn

/-- A buffer is submitted and scheduled: its callback ends with what was registered. -/
theorem run_untorn_scheduled :
    ∃ self : FrameTraceCommands Unit, self.Untorn ∧
      (self.step (.advance 0)).map Prod.snd = some (some
        ⟨⟨2, 5, 6, 7, 8, 9, some ⟨1, 2, 3, 4⟩, 10, 11, 12, 13, 14, 15, 16, 1, 1, 0, 0, 17, 18,
          41⟩, ()⟩) := by
  let submitted : CommandEvent Unit :=
    ⟨⟨2, 5, 6, 7, 8, 9, some ⟨1, 2, 3, 4⟩, 10, 11, 12, 13, 14, 15, 16, 1, 1, 0, 0, 17, 18, 41⟩,
      ()⟩
  let scheduled : CommandEvent Unit :=
    ⟨⟨0, 0, 0, 0, 0, 0, none, 0, 0, 0, 0, 0, 0, 0, 0, 0, 0, 0, 0, 0, 99⟩, ()⟩
  let operations : List (CommandStep Unit) :=
    List.replicate 27 .advanceRegister ++ .populate 0 99 scheduled ::
      List.replicate 34 (.advance 0)
  have returns : ((operations.foldlM next ((new : FrameTraceCommands Unit).register 99
      submitted.metadata)).bind fun self => (self.step (.advance 0)).map Prod.snd) =
        some (some submitted) := by
    decide +kernel
  rcases Option.bind_eq_some_iff.mp returns with ⟨self, runs, returns⟩
  have run : Run next Allowed new (.register 99 submitted :: operations) self := by
    apply Run.cons
    · exact ⟨by decide, fun isRegistered => absurd rfl isRegistered⟩
    · rfl
    · apply Run.of_foldlM_of_forall _ runs
      intro state event member
      rcases List.mem_append.mp member with registers | others
      · rw [List.eq_of_mem_replicate registers]
        trivial
      · rcases List.mem_cons.mp others with rfl | advances
        · exact (by decide : (99 : UInt64) ≠ 0)
        · rw [List.eq_of_mem_replicate advances]
          trivial
  exact ⟨self, run_untorn run, returns⟩

end FrameTraceCommands

end Gpui
