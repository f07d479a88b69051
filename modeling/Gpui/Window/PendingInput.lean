import Gpui.Keymap.Dispatch
import Gpui.Window.ModifierTaps

/-!
# Pending input

A window keeps the keystrokes that may become a longer binding.  The next keystroke goes
behind them, a timer replays them, a change of focus or a menu drops them.

What the application does in between is given with each event: how its handlers answer, and
where they move the focus.  The tree, the keymap and the path to a focus are those of the
moment.  Handlers do not dispatch keystrokes themselves.  A panic yields `none`.
-/

namespace Gpui

variable {L A : Type} [Action A]

structure PendingInput where
  keystrokes : List Keystroke := []
  focus : Option FocusId := none
  /-- Whether there is a timer. -/
  timer : Bool := false
  needsTimeout : Bool := false

/-- What a window knows of its input. -/
structure WindowInput where
  focus : Option FocusId
  focusEnabled : Bool
  pendingInput : Option PendingInput
  pendingModifier : ModifierState

/-- What becomes of a keystroke that leaves the window's hands. -/
structure Delivery (A : Type) where
  /-- The bindings whose actions were dispatched. -/
  dispatched : List (KeyBinding A)
  handled : Bool
  /-- The text that is given to the input handler. -/
  text : Option String

inductive KeyOutcome (A : Type) where
  | intercepted (keystroke : Keystroke)
  | dropped (keystrokes : List Keystroke)
  | replayed (replay : Replay A) (delivery : Delivery A)
  /-- The keystroke completes these bindings, or none.  They are skipped if the character it
  types is preferred. -/
  | completed (keystroke : Keystroke) (bindings : List (KeyBinding A)) (skipped : Bool)
      (delivery : Delivery A)

/-- An outcome with the keymap and the contexts that it is due to. -/
structure KeyEntry (A : Type) [Action A] where
  keymap : Keymap A
  contextStack : List KeyContext
  outcome : KeyOutcome A

inductive FocusMove where
  | focus (id : FocusId)
  | blur
  | disableFocus
  | clearPendingKeystrokes
deriving DecidableEq

structure KeyScene (L A : Type) [Action A] where
  tree : DispatchTree L
  keymap : Keymap A
  dispatchPath : Option FocusId → List DispatchNodeId

/-- What the handlers of one event do.  Replays are counted, the event's own keystroke comes
behind them. -/
structure KeyAnswers (A : Type) where
  /-- The interceptors move the focus, and may keep the event. -/
  interceptorMoves : List FocusMove
  intercepts : Bool
  /-- Whether an action of the binding is handled. -/
  handles : Nat → KeyBinding A → Bool
  /-- Whether a key listener stops the event. -/
  listenerStops : Nat → Bool
  handlerMoves : List FocusMove
  inputHandler : Bool
  acceptsTextInput : Bool

inductive InputEvent (L A : Type) [Action A] where
  | move (move : FocusMove)
  | key (event : KeyEvent) (preferCharacterInput : Bool) (scene : KeyScene L A)
      (answers : KeyAnswers A)
  /-- The timer, if there is one, is due. -/
  | timeout (scene : KeyScene L A) (answers : KeyAnswers A)

namespace WindowInput

def new : WindowInput where
  focus := none
  focusEnabled := true
  pendingInput := none
  pendingModifier := .new

def pendingKeystrokes (self : WindowInput) : List Keystroke :=
  (self.pendingInput.map PendingInput.keystrokes).getD []

/-- The window without its pending input, and the keystrokes that go with it. -/
def clearPendingKeystrokes (self : WindowInput) : WindowInput × List Keystroke :=
  ({ self with pendingInput := none }, self.pendingKeystrokes)

def move (self : WindowInput) : FocusMove → WindowInput × List Keystroke
  | .focus id =>
      if self.focusEnabled = false ∨ self.focus = some id then (self, [])
      else { self with focus := some id }.clearPendingKeystrokes
  | .blur => if self.focusEnabled then ({ self with focus := none }, []) else (self, [])
  | .disableFocus =>
      ({ self with
        focus := if self.focusEnabled then none else self.focus
        focusEnabled := false }, [])
  | .clearPendingKeystrokes => self.clearPendingKeystrokes

def moves (self : WindowInput) : List FocusMove → WindowInput × List Keystroke
  | [] => (self, [])
  | first :: rest =>
      let (moved, dropped) := self.move first
      let (last, more) := moved.moves rest
      (last, dropped ++ more)

/-- What a keystroke goes behind: the pending input, unless that is for another focus, and the
keystrokes that are given up then. -/
def currentlyPending (self : WindowInput) : PendingInput × List Keystroke :=
  let currentlyPending := self.pendingInput.getD {}
  if currentlyPending.focus.isSome ∧ currentlyPending.focus ≠ self.focus then
    ({}, currentlyPending.keystrokes)
  else (currentlyPending, [])

end WindowInput

namespace KeyAnswers

/-- The loop over the bindings, which ends with the first whose action is handled. -/
def dispatchBindings (handles : KeyBinding A → Bool) :
    List (KeyBinding A) → List (KeyBinding A) × Bool
  | [] => ([], false)
  | binding :: rest =>
      if handles binding then ([binding], true)
      else
        let (dispatched, handled) := dispatchBindings handles rest
        (binding :: dispatched, handled)

/-- The keystroke of a replay that no binding handles goes to the key listeners, and then to
the input handler. -/
def deliver (self : KeyAnswers A) (index : Nat) (replay : Replay A) : Delivery A :=
  let (dispatched, handled) := dispatchBindings (self.handles index) replay.bindings
  { dispatched, handled
    text :=
      if handled ∨ self.listenerStops index ∨ self.inputHandler = false then none
      else replay.keystroke.keyChar }

def replayPendingInput (self : KeyAnswers A) (replays : List (Replay A)) : List (KeyOutcome A) :=
  replays.mapIdx fun index replay => .replayed replay (self.deliver index replay)

/-- The input handler gets the text of the event's own keystroke from the platform. -/
def complete (self : KeyAnswers A) (index : Nat) (keystroke : Keystroke)
    (bindings : List (KeyBinding A)) (skipped : Bool) : KeyOutcome A :=
  let (dispatched, handled) :=
    dispatchBindings (self.handles index) (if skipped then [] else bindings)
  .completed keystroke bindings skipped { dispatched, handled, text := none }

end KeyAnswers

/-! ## A session -/

/-- The window, the keystrokes that came through the interceptors, and what became of them. -/
structure KeySession (A : Type) [Action A] where
  window : WindowInput
  typed : List Keystroke
  entries : List (KeyEntry A)
  /-- The keymap and the contexts that the last keystroke was dispatched with. -/
  seen : Keymap A × List KeyContext

namespace KeySession

def new : KeySession A where
  window := .new
  typed := []
  entries := []
  seen := (.new [], [])

def dropped : List Keystroke → List (KeyOutcome A)
  | [] => []
  | keystrokes => [.dropped keystrokes]

/-- Go on with a window, and note what became of keystrokes. -/
def note (self : KeySession A) (window : WindowInput) (scene : KeyScene L A)
    (focus : Option FocusId) (outcomes : List (KeyOutcome A)) : KeySession A :=
  { self with
    window
    entries := self.entries ++ outcomes.map
      (KeyEntry.mk scene.keymap (scene.tree.contextsOf (scene.dispatchPath focus))) }

/-- The focus moves; the entry does not depend on the keymap. -/
def moves (self : KeySession A) (focusMoves : List FocusMove) : KeySession A :=
  let (window, keystrokes) := self.window.moves focusMoves
  { self with
    window
    entries := self.entries ++ (dropped keystrokes).map (KeyEntry.mk (.new []) []) }

/-- `replay_pending_input`, whose handlers may move the focus. -/
def replay (self : KeySession A) (scene : KeyScene L A) (focus : Option FocusId)
    (answers : KeyAnswers A) (replays : List (Replay A)) : KeySession A :=
  if replays.isEmpty then self
  else
    (self.note self.window scene focus (answers.replayPendingInput replays)).moves
      answers.handlerMoves

/-- `dispatch_key_event` from where it takes the pending input, with the focus that the event
found. -/
def dispatchKeystroke (self : KeySession A) (focus : Option FocusId) (keystroke : Keystroke)
    (keyDown preferCharacterInput : Bool) (scene : KeyScene L A) (answers : KeyAnswers A) :
    Option (KeySession A) := do
  let (currentlyPending, stale) := self.window.currentlyPending
  let result ← scene.tree.dispatchKey scene.keymap currentlyPending.keystrokes keystroke
    (scene.dispatchPath focus)
  let self :=
    (self.note { self.window with pendingInput := none } scene focus (dropped stale)).replay scene
      focus answers result.toReplay
  let self :=
    { self with
      typed := self.typed ++ [keystroke]
      seen := (scene.keymap, scene.tree.contextsOf (scene.dispatchPath focus)) }
  if result.pending.isEmpty then
    let skipped := keyDown && preferCharacterInput && answers.acceptsTextInput
    return self.note self.window scene focus
      [answers.complete result.toReplay.length keystroke result.bindings skipped]
  else
    let textInputRequiresTimeout :=
      keyDown && keystroke.keyChar.isSome && answers.acceptsTextInput
    let needsTimeout :=
      currentlyPending.needsTimeout || (result.pendingHasBinding || textInputRequiresTimeout)
    let pendingInput : PendingInput :=
      { keystrokes := result.pending, focus := self.window.focus
        timer := needsTimeout, needsTimeout }
    return { self with window := { self.window with pendingInput := some pendingInput } }

def dispatchKeyEvent (self : KeySession A) (event : KeyEvent) (preferCharacterInput : Bool)
    (scene : KeyScene L A) (answers : KeyAnswers A) : Option (KeySession A) :=
  let focus := self.window.focus
  let (keystroke, pendingModifier) := self.window.pendingModifier.dispatchKeyEvent event
  let self := { self with window := { self.window with pendingModifier } }
  match keystroke with
  | none => some self
  | some keystroke =>
      let self := self.moves answers.interceptorMoves
      if answers.intercepts then
        some (self.note self.window scene focus [.intercepted keystroke])
      else
        let keyDown := match event with
          | .keyDown _ => true
          | .modifiersChanged _ => false
        self.dispatchKeystroke focus keystroke keyDown preferCharacterInput scene answers

/-- The task of the timer. -/
def timeout (self : KeySession A) (scene : KeyScene L A) (answers : KeyAnswers A) :
    Option (KeySession A) :=
  match self.window.pendingInput with
  | none => some self
  | some pending =>
      if pending.timer = false then some self
      else
        let window := { self.window with pendingInput := none }
        let focus := self.window.focus
        if pending.focus = focus then do
          let replays ←
            scene.tree.flushDispatch scene.keymap pending.keystrokes (scene.dispatchPath focus)
          return { self with window }.replay scene focus answers replays
        else some (self.note window scene focus (dropped pending.keystrokes))

def step (self : KeySession A) : InputEvent L A → Option (KeySession A)
  | .move move => some (self.moves [move])
  | .key event preferCharacterInput scene answers =>
      self.dispatchKeyEvent event preferCharacterInput scene answers
  | .timeout scene answers => self.timeout scene answers

end KeySession

/-! ## Where keystrokes go -/

/-- Actions are dispatched in the order of the bindings, until one is handled. -/
structure Delivers (bindings : List (KeyBinding A)) (delivery : Delivery A) : Prop where
  dispatched : delivery.dispatched <+: bindings
  unhandled : delivery.handled = false → delivery.dispatched = bindings
  handled : delivery.handled = true → delivery.dispatched ≠ [] ∧ delivery.text = none

/-- The stretch of keystrokes that an entry is about. -/
def KeyEntry.Settles (entry : KeyEntry A) (segment : List Keystroke) : Prop :=
  let bindings := (entry.keymap.bindingsForInput segment entry.contextStack).1
  match entry.outcome with
  | .intercepted _ => segment = []
  | .dropped keystrokes => segment = keystrokes
  | .replayed replay delivery =>
      segment.getLast? = some replay.keystroke ∧ replay.bindings = bindings ∧
        (1 < segment.length → bindings ≠ []) ∧ Delivers bindings delivery
  | .completed keystroke matched skipped delivery =>
      segment.getLast? = some keystroke ∧ matched = bindings ∧
        (1 < segment.length → bindings ≠ []) ∧
          Delivers (if skipped then [] else bindings) delivery

/-- What was typed is the stretches of the entries, in order, and a rest. -/
def Accounts (typed : List Keystroke) (entries : List (KeyEntry A)) (rest : List Keystroke) :
    Prop :=
  ∃ segments, List.Forall₂ KeyEntry.Settles entries segments ∧ typed = segments.flatten ++ rest

omit [Action A] in
theorem dispatchBindings_delivers (handles : KeyBinding A → Bool) (bindings : List (KeyBinding A))
    {text : Option String}
    (silent : (KeyAnswers.dispatchBindings handles bindings).2 = true → text = none) :
    Delivers bindings
      { dispatched := (KeyAnswers.dispatchBindings handles bindings).1
        handled := (KeyAnswers.dispatchBindings handles bindings).2
        text } := by
  induction bindings with
  | nil => exact ⟨List.nil_prefix, fun _ => rfl, nofun⟩
  | cons binding bindings ih =>
      rw [KeyAnswers.dispatchBindings] at silent ⊢
      by_cases handled : handles binding = true
      · rw [if_pos handled] at silent ⊢
        exact
          { dispatched := List.prefix_append [binding] bindings
            unhandled := nofun
            handled := fun _ => ⟨List.cons_ne_nil _ _, silent rfl⟩ }
      · rw [if_neg handled] at silent ⊢
        have rest := ih silent
        exact
          { dispatched := List.cons_prefix_cons.mpr ⟨rfl, rest.dispatched⟩
            unhandled := fun unhandled => congrArg (binding :: ·) (rest.unhandled unhandled)
            handled := fun handled => ⟨List.cons_ne_nil _ _, (rest.handled handled).2⟩ }

omit [Action A] in
theorem KeyAnswers.deliver_delivers (answers : KeyAnswers A) (index : Nat) (replay : Replay A) :
    Delivers replay.bindings (answers.deliver index replay) := by
  apply dispatchBindings_delivers
  intro handled
  exact if_pos (Or.inl handled)

theorem KeyAnswers.complete_settles (answers : KeyAnswers A) (index : Nat) {keymap : Keymap A}
    {contextStack : List KeyContext} {segment : List Keystroke} {keystroke : Keystroke}
    {bindings : List (KeyBinding A)} {skipped : Bool} (last : segment.getLast? = some keystroke)
    (matched : bindings = (keymap.bindingsForInput segment contextStack).1)
    (found : 1 < segment.length → (keymap.bindingsForInput segment contextStack).1 ≠ []) :
    KeyEntry.Settles
      ⟨keymap, contextStack, answers.complete index keystroke bindings skipped⟩ segment := by
  subst matched
  exact ⟨last, rfl, found, dispatchBindings_delivers _ _ fun _ => rfl⟩

namespace Accounts

variable {typed rest : List Keystroke} {entries : List (KeyEntry A)}

theorem snoc (accounts : Accounts typed entries rest) (keystroke : Keystroke) :
    Accounts (typed ++ [keystroke]) entries (rest ++ [keystroke]) := by
  rcases accounts with ⟨segments, settles, rfl⟩
  exact ⟨segments, settles, List.append_assoc _ _ _⟩

theorem append (accounts : Accounts typed entries rest) {more : List (KeyEntry A)}
    (segments : List (List Keystroke)) {left : List Keystroke}
    (settles : List.Forall₂ KeyEntry.Settles more segments)
    (split : rest = segments.flatten ++ left) : Accounts typed (entries ++ more) left := by
  rcases accounts with ⟨before, settled, rfl⟩
  refine ⟨before ++ segments, List.rel_append settled settles, ?_⟩
  rw [split, List.flatten_append, List.append_assoc]

/-- Keystrokes are dropped from the front. -/
theorem dropped (accounts : Accounts typed entries rest) {keystrokes left : List Keystroke}
    (keymap : Keymap A) (contextStack : List KeyContext) (split : rest = keystrokes ++ left) :
    Accounts typed
      (entries ++ (KeySession.dropped keystrokes).map (KeyEntry.mk keymap contextStack)) left := by
  cases keystrokes with
  | nil => exact accounts.append [] .nil split
  | cons keystroke keystrokes =>
      apply accounts.append [keystroke :: keystrokes]
      · exact .cons rfl .nil
      · rw [split, List.flatten_singleton]

/-- Keystrokes are replayed from the front. -/
theorem replayed (accounts : Accounts typed entries rest) {keymap : Keymap A}
    {contextStack : List KeyContext} {replays : List (Replay A)} {left : List Keystroke}
    (replaying : DispatchTree.Replays keymap contextStack rest replays left)
    (deliver : Nat → Replay A → Delivery A)
    (delivers : ∀ index replay, Delivers replay.bindings (deliver index replay)) :
    Accounts typed (entries ++ (replays.mapIdx fun index replay =>
      KeyOutcome.replayed replay (deliver index replay)).map (KeyEntry.mk keymap contextStack))
      left := by
  induction replaying generalizing entries deliver with
  | done => exact accounts.append [] .nil rfl
  | @segment segment rest suffix replay replays represents _ ih =>
      rw [List.mapIdx_cons, List.map_cons, ← List.singleton_append, ← List.append_assoc]
      apply ih _ (fun index => deliver (index + 1)) fun index => delivers (index + 1)
      apply accounts.append [segment]
      · apply List.Forall₂.cons _ .nil
        refine ⟨represents.last, represents.bindings, ?_, ?_⟩
        · intro long
          rw [← represents.bindings]
          exact represents.found long
        · rw [← represents.bindings]
          exact delivers 0 replay
      · rw [List.flatten_singleton]

end Accounts

/-! ## Whole sessions -/

/-- The pending input is for the focus, unless that was lost; it may become a longer binding, and
if it is a binding already, the timer is there to end it. -/
structure Waits (window : WindowInput) (seen : Keymap A × List KeyContext)
    (pending : PendingInput) : Prop where
  nonempty : pending.keystrokes ≠ []
  timer : pending.timer = pending.needsTimeout
  focus : pending.focus = window.focus ∨ window.focus = none
  longer : (seen.1.bindingsForInput pending.keystrokes seen.2).2 = true
  complete : pending.timer = false →
    (seen.1.bindingsForInput pending.keystrokes seen.2).1 = []

structure KeySession.Sound (session : KeySession A) : Prop where
  accounts : Accounts session.typed session.entries session.window.pendingKeystrokes
  waits : ∀ pending, session.window.pendingInput = some pending →
    Waits session.window session.seen pending

namespace WindowInput

theorem pendingKeystrokes_eq_nil {window : WindowInput} (isNone : window.pendingInput = none) :
    window.pendingKeystrokes = [] := by
  rw [pendingKeystrokes, isNone]
  rfl

/-- A move of the focus drops the pending keystrokes or keeps them. -/
theorem move_pendingKeystrokes (window : WindowInput) (focusMove : FocusMove) :
    window.pendingKeystrokes =
      (window.move focusMove).2 ++ (window.move focusMove).1.pendingKeystrokes := by
  cases focusMove with
  | focus id =>
      rw [move]
      split
      · rfl
      · exact (List.append_nil _).symm
  | blur =>
      rw [move]
      split
      · rfl
      · rfl
  | disableFocus => rfl
  | clearPendingKeystrokes => exact (List.append_nil _).symm

theorem currentlyPending_keystrokes (window : WindowInput) :
    window.pendingKeystrokes =
      window.currentlyPending.2 ++ window.currentlyPending.1.keystrokes := by
  have keystrokes : window.pendingKeystrokes = (window.pendingInput.getD {}).keystrokes := by
    rw [pendingKeystrokes]
    cases window.pendingInput with
    | none => rfl
    | some pending => rfl
  rw [keystrokes, currentlyPending]
  split
  · exact (List.append_nil _).symm
  · rfl

theorem move_waits {window : WindowInput} {seen : Keymap A × List KeyContext}
    (waits : ∀ pending, window.pendingInput = some pending → Waits window seen pending)
    (focusMove : FocusMove) :
    ∀ pending, (window.move focusMove).1.pendingInput = some pending →
      Waits (window.move focusMove).1 seen pending := by
  intro pending
  cases focusMove with
  | focus id =>
      rw [move]
      split
      · exact waits pending
      · nofun
  | blur =>
      rw [move]
      split
      · intro isPending
        exact { waits pending isPending with focus := Or.inr rfl }
      · exact waits pending
  | disableFocus =>
      intro isPending
      have before := waits pending isPending
      refine { before with focus := ?_ }
      by_cases enabled : window.focusEnabled = true
      · exact Or.inr (if_pos enabled)
      · rcases before.focus with same | lost
        · exact Or.inl (same.trans (if_neg enabled).symm)
        · exact Or.inr ((if_neg enabled).trans lost)
  | clearPendingKeystrokes => nofun

theorem moves_pendingKeystrokes (window : WindowInput) (focusMoves : List FocusMove) :
    window.pendingKeystrokes =
      (window.moves focusMoves).2 ++ (window.moves focusMoves).1.pendingKeystrokes := by
  induction focusMoves generalizing window with
  | nil => rfl
  | cons first rest ih =>
      rw [moves, window.move_pendingKeystrokes first, ih (window.move first).1,
        List.append_assoc]

theorem moves_waits {window : WindowInput} {seen : Keymap A × List KeyContext}
    (waits : ∀ pending, window.pendingInput = some pending → Waits window seen pending)
    (focusMoves : List FocusMove) :
    ∀ pending, (window.moves focusMoves).1.pendingInput = some pending →
      Waits (window.moves focusMoves).1 seen pending := by
  induction focusMoves generalizing window with
  | nil => exact waits
  | cons first rest ih => exact ih (move_waits waits first)

theorem move_eq_none {window : WindowInput} (isNone : window.pendingInput = none)
    (focusMove : FocusMove) : (window.move focusMove).1.pendingInput = none := by
  cases focusMove with
  | focus id =>
      rw [move]
      split
      · exact isNone
      · rfl
  | blur =>
      rw [move]
      split
      · exact isNone
      · exact isNone
  | disableFocus => exact isNone
  | clearPendingKeystrokes => rfl

theorem moves_eq_none {window : WindowInput} (isNone : window.pendingInput = none)
    (focusMoves : List FocusMove) : (window.moves focusMoves).1.pendingInput = none := by
  induction focusMoves generalizing window with
  | nil => exact isNone
  | cons first rest ih => exact ih (move_eq_none isNone first)

end WindowInput

namespace KeySession.Sound

variable {session : KeySession A}

theorem new : Sound (KeySession.new : KeySession A) where
  accounts := ⟨[], .nil, rfl⟩
  waits := nofun

theorem moves (sound : Sound session) (focusMoves : List FocusMove) :
    Sound (session.moves focusMoves) where
  accounts := sound.accounts.dropped _ _ (session.window.moves_pendingKeystrokes focusMoves)
  waits := WindowInput.moves_waits sound.waits focusMoves

/-- All keystrokes found their entries. -/
theorem of_none (isNone : session.window.pendingInput = none)
    (accounts : Accounts session.typed session.entries []) : Sound session where
  accounts := by
    rw [WindowInput.pendingKeystrokes_eq_nil isNone]
    exact accounts
  waits := by
    rw [isNone]
    nofun

/-- Without pending input, a move of the focus leaves no entry. -/
theorem moves_entries (isNone : session.window.pendingInput = none)
    (focusMoves : List FocusMove) : (session.moves focusMoves).entries = session.entries := by
  have nothing := session.window.moves_pendingKeystrokes focusMoves
  rw [WindowInput.pendingKeystrokes_eq_nil isNone] at nothing
  have dropped := (List.append_eq_nil_iff.mp nothing.symm).1
  simp only [KeySession.moves, dropped, KeySession.dropped, List.map_nil, List.append_nil]

theorem replay (isNone : session.window.pendingInput = none) {rest left : List Keystroke}
    (accounts : Accounts session.typed session.entries rest) {scene : KeyScene L A}
    {focus : Option FocusId} {replays : List (Replay A)} (answers : KeyAnswers A)
    (replaying : DispatchTree.Replays scene.keymap
      (scene.tree.contextsOf (scene.dispatchPath focus)) rest replays left) :
    (session.replay scene focus answers replays).window.pendingInput = none ∧
      Accounts session.typed (session.replay scene focus answers replays).entries left ∧
        (session.replay scene focus answers replays).typed = session.typed := by
  unfold KeySession.replay
  by_cases nothing : replays.isEmpty = true
  · rw [if_pos nothing]
    obtain rfl := List.isEmpty_iff.mp nothing
    cases replaying
    exact ⟨isNone, accounts, rfl⟩
  · rw [if_neg nothing]
    refine ⟨WindowInput.moves_eq_none isNone _, ?_, rfl⟩
    rw [moves_entries (by exact isNone)]
    exact accounts.replayed replaying answers.deliver answers.deliver_delivers

theorem dispatchKeystroke (sound : Sound session) (focus : Option FocusId) (keystroke : Keystroke)
    (keyDown preferCharacterInput : Bool) (scene : KeyScene L A) (answers : KeyAnswers A) :
    ∃ next, session.dispatchKeystroke focus keystroke keyDown preferCharacterInput scene answers =
      some next ∧ Sound next := by
  have split := session.window.currentlyPending_keystrokes
  rcases isCurrent : session.window.currentlyPending with ⟨current, stale⟩
  rw [isCurrent] at split
  rcases scene.tree.dispatchKey_segments scene.keymap current.keystrokes keystroke
    (scene.dispatchPath focus) with ⟨result, suffix, dispatches, replaying, finishes⟩
  have given := sound.accounts.dropped scene.keymap
    (scene.tree.contextsOf (scene.dispatchPath focus)) split
  have behind : ∃ dropped : KeySession A, session.note { session.window with pendingInput := none }
      scene focus (KeySession.dropped stale) = dropped := ⟨_, rfl⟩
  rcases behind with ⟨dropped, isDropped⟩
  have typed : dropped.typed = session.typed := by
    rw [← isDropped]
    rfl
  have replayed : ∃ replayed : KeySession A,
      dropped.replay scene focus answers result.toReplay = replayed := ⟨_, rfl⟩
  rcases replayed with ⟨replayed, isReplayed⟩
  have settled : replayed.window.pendingInput = none ∧
      Accounts session.typed replayed.entries suffix ∧ replayed.typed = session.typed := by
    rw [← isReplayed, ← typed]
    apply replay _ _ answers replaying
    · rw [← isDropped]
      rfl
    · rw [← isDropped]
      exact given
  have accounts := settled.2.1.snoc keystroke
  rw [← settled.2.2] at accounts
  simp only [KeySession.dispatchKeystroke, isCurrent, isDropped]
  rw [dispatches]
  simp only [Option.bind_eq_bind, Option.bind_some, isReplayed]
  rcases finishes with ⟨isPending, longer, _, complete⟩ | ⟨notPending, _, matched, found⟩
  · have nonempty : result.pending ≠ [] := by
      rw [isPending]
      simp
    have notEmpty : result.pending.isEmpty = false := by
      simpa using nonempty
    rw [notEmpty, if_neg Bool.false_ne_true]
    refine ⟨_, rfl, ?_, ?_⟩
    · rw [← isPending] at accounts
      exact accounts
    · intro pending isLast
      rcases Option.some.inj isLast with rfl
      exact
        { nonempty
          timer := rfl
          focus := Or.inl rfl
          longer := by
            change (scene.keymap.bindingsForInput result.pending _).2 = true
            rw [isPending]
            exact longer
          complete := by
            intro noTimer
            change (scene.keymap.bindingsForInput result.pending _).1 = []
            have noBinding : result.pendingHasBinding = false :=
              (Bool.or_eq_false_iff.mp (Bool.or_eq_false_iff.mp noTimer).2).1
            rw [complete, Bool.not_eq_false'] at noBinding
            rw [isPending]
            exact List.isEmpty_iff.mp noBinding }
  · have empty : result.pending.isEmpty = true := by
      rw [notPending]
      rfl
    rw [if_pos empty]
    refine ⟨_, rfl, of_none settled.1 ?_⟩
    apply accounts.append [suffix ++ [keystroke]]
    · apply List.Forall₂.cons _ .nil
      apply answers.complete_settles _ List.getLast?_concat matched
      intro long
      rcases found with some | single
      · exact some
      · omega
    · rw [List.flatten_singleton, List.append_nil]

theorem intercepted (sound : Sound session) (scene : KeyScene L A) (focus : Option FocusId)
    (keystroke : Keystroke) :
    Sound (session.note session.window scene focus [.intercepted keystroke]) where
  accounts := by
    apply sound.accounts.append [[]]
    · exact .cons rfl .nil
    · rfl
  waits := sound.waits

theorem dispatchKeyEvent (sound : Sound session) (event : KeyEvent) (preferCharacterInput : Bool)
    (scene : KeyScene L A) (answers : KeyAnswers A) :
    ∃ next, session.dispatchKeyEvent event preferCharacterInput scene answers = some next ∧
      Sound next := by
  rcases isKeystroke : session.window.pendingModifier.dispatchKeyEvent event with
    ⟨keystroke, pendingModifier⟩
  have noted : Sound { session with window := { session.window with pendingModifier } } :=
    ⟨sound.accounts, fun pending isPending => { sound.waits pending isPending with }⟩
  simp only [KeySession.dispatchKeyEvent, isKeystroke]
  cases keystroke with
  | none => exact ⟨_, rfl, noted⟩
  | some keystroke =>
      have moved := noted.moves answers.interceptorMoves
      simp only
      by_cases intercepts : answers.intercepts = true
      · rw [if_pos intercepts]
        exact ⟨_, rfl, moved.intercepted scene _ keystroke⟩
      · rw [if_neg intercepts]
        exact moved.dispatchKeystroke _ keystroke _ preferCharacterInput scene answers

theorem timeout (sound : Sound session) (scene : KeyScene L A) (answers : KeyAnswers A) :
    ∃ next, session.timeout scene answers = some next ∧ Sound next := by
  unfold KeySession.timeout
  cases isPending : session.window.pendingInput with
  | none => exact ⟨session, rfl, sound⟩
  | some pending =>
      have accounts := sound.accounts
      have keystrokes : session.window.pendingKeystrokes = pending.keystrokes := by
        rw [WindowInput.pendingKeystrokes, isPending]
        rfl
      rw [keystrokes] at accounts
      simp only
      by_cases noTimer : pending.timer = false
      · rw [if_pos noTimer]
        exact ⟨session, rfl, sound⟩
      · rw [if_neg noTimer]
        by_cases same : pending.focus = session.window.focus
        · rw [if_pos same]
          rcases scene.tree.flushDispatch_segments scene.keymap
            (sound.waits pending isPending).nonempty (scene.dispatchPath session.window.focus) with
            ⟨replays, flushes, replaying⟩
          rw [flushes]
          have taken : { session with
              window := { session.window with pendingInput := none } }.window.pendingInput = none :=
            rfl
          have replayed := replay taken accounts answers replaying
          refine ⟨_, rfl, of_none replayed.1 ?_⟩
          rw [replayed.2.2]
          exact replayed.2.1
        · rw [if_neg same]
          refine ⟨_, rfl, of_none rfl ?_⟩
          apply accounts.dropped
          rw [List.append_nil]

theorem step (sound : Sound session) (event : InputEvent L A) :
    ∃ next, session.step event = some next ∧ Sound next := by
  cases event with
  | move focusMove => exact ⟨_, rfl, sound.moves [focusMove]⟩
  | key event preferCharacterInput scene answers =>
      exact sound.dispatchKeyEvent event preferCharacterInput scene answers
  | timeout scene answers => exact sound.timeout scene answers

theorem foldlM (sound : Sound session) (events : List (InputEvent L A)) :
    ∃ last, events.foldlM KeySession.step session = some last ∧ Sound last := by
  induction events generalizing session with
  | nil => exact ⟨session, rfl, sound⟩
  | cons event events ih =>
      rcases sound.step event with ⟨next, stepped, nextSound⟩
      rcases ih nextSound with ⟨last, run, lastSound⟩
      refine ⟨last, ?_, lastSound⟩
      rw [List.foldlM_cons, stepped]
      exact run

end KeySession.Sound

/-- A window takes whatever keys, timeouts and moves of the focus there are, and whatever the
handlers answer.  Each keystroke that came through the interceptors is in exactly one stretch, in
the order typed: the stretches were replayed, completed or dropped one after the other, and the
last is still pending. -/
theorem KeySession.run_settles (events : List (InputEvent L A)) :
    ∃ last : KeySession A, events.foldlM KeySession.step .new = some last ∧
      Accounts last.typed last.entries last.window.pendingKeystrokes ∧
        ∀ pending, last.window.pendingInput = some pending →
          Waits last.window last.seen pending := by
  rcases (Sound.new : Sound (KeySession.new : KeySession A)).foldlM events with
    ⟨last, run, sound⟩
  exact ⟨last, run, sound.accounts, sound.waits⟩

end Gpui
