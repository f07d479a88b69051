import Gpui.Library.Transition

/-!
# Key repeat under Wayland

A press of a key starts a timer that presses it again and again.  A timer is never cancelled:
when it fires it compares its number with the current one, which the next press and the loss
of the focus change, and gives the key to the window that has the focus then.

A window that is dropped takes the focus with it but leaves the number, and so does a window
that gets the focus.  A repeat that is still alive goes to that window.

The keystroke of a key, the input methods and the delays are left out.
-/

namespace Gpui

open Gpui.Library

/-- What the closure of a timer has captured. -/
structure RepeatTimer (Key : Type) where
  id : Nat
  key : Key
  rate : UInt32
deriving DecidableEq, Repr

/-- The windows, the one with the focus, the fields of `repeat` and the timers that are
scheduled. -/
structure WaylandKeyboard (Surface Window Key : Type) where
  windows : List (Surface × Window)
  keyboardFocusedWindow : Option Window
  charactersPerSecond : UInt32
  currentId : Nat
  currentKeycode : Option Key
  timers : List (RepeatTimer Key)

/-- What a window is given. -/
inductive KeyInput (Key : Type) where
  | keyDown (key : Key) (isHeld : Bool)
  | keyUp (key : Key)
deriving DecidableEq, Repr

inductive KeyboardEvent (Surface Key : Type) where
  | repeatInfo (rate : UInt32)
  | enter (surface : Surface)
  | leave (surface : Surface)
  | pressed (key : Key)
  | released (key : Key)
  | dropWindow (surface : Surface)
  | fire (ix : Nat)
deriving DecidableEq, Repr

namespace WaylandKeyboard

variable {Surface Window Key : Type} [DecidableEq Surface] [DecidableEq Window]
  [DecidableEq Key]

omit [DecidableEq Surface] [DecidableEq Window] [DecidableEq Key] in
def new (windows : List (Surface × Window)) : WaylandKeyboard Surface Window Key where
  windows := windows
  keyboardFocusedWindow := none
  charactersPerSecond := 16
  currentId := 0
  currentKeycode := none
  timers := []

omit [DecidableEq Window] [DecidableEq Key] in
def getWindow (self : WaylandKeyboard Surface Window Key) (surface : Surface) : Option Window :=
  self.windows.lookup surface

/-- A key that is no modifier is pressed with a window in the focus: it is repeated from now
on, under a number of its own. -/
def press (self : WaylandKeyboard Surface Window Key) (key : Key) :
    WaylandKeyboard Surface Window Key :=
  let timer : RepeatTimer Key :=
    { id := self.currentId + 1, key, rate := self.charactersPerSecond }
  { self with
    currentId := self.currentId + 1
    currentKeycode := some key
    timers := self.timers ++ [timer] }

def release (self : WaylandKeyboard Surface Window Key) (key : Key) :
    WaylandKeyboard Surface Window Key :=
  if self.currentKeycode = some key then { self with currentKeycode := none } else self

/-- Closing a window that is not there panics. -/
def dropWindow (self : WaylandKeyboard Surface Window Key) (surface : Surface) :
    Option (WaylandKeyboard Surface Window Key) := do
  let closedWindow ← self.getWindow surface
  return { self with
    windows := self.windows.filter fun entry => entry.1 ≠ surface
    keyboardFocusedWindow :=
      self.keyboardFocusedWindow.filter fun window => window ≠ closedWindow }

omit [DecidableEq Surface] [DecidableEq Window] [DecidableEq Key] in
/-- `TimeoutAction::Drop`. -/
def dropTimer (self : WaylandKeyboard Surface Window Key) (ix : Nat) :
    WaylandKeyboard Surface Window Key :=
  { self with timers := self.timers.eraseIdx ix }

omit [DecidableEq Surface] [DecidableEq Window] [DecidableEq Key] in
/-- A timer fires: it presses the key again and stays, or it is dropped. -/
def fire (self : WaylandKeyboard Surface Window Key) (ix : Nat) :
    Option (WaylandKeyboard Surface Window Key × Option (Window × KeyInput Key)) := do
  let timer ← self.timers[ix]?
  let isRepeating := timer.id = self.currentId ∧ self.currentKeycode.isSome = true
  match self.keyboardFocusedWindow with
  | some focusedWindow =>
      if isRepeating ∧ timer.rate ≠ 0 then
        return (self, some (focusedWindow, .keyDown timer.key true))
      else return (self.dropTimer ix, none)
  | none => return (self.dropTimer ix, none)

/-- What an event does, and what it gives to a window. -/
def step (isModifierKey : Key → Bool) (self : WaylandKeyboard Surface Window Key) :
    KeyboardEvent Surface Key →
      Option (WaylandKeyboard Surface Window Key × Option (Window × KeyInput Key))
  | .repeatInfo rate => some ({ self with charactersPerSecond := rate }, none)
  | .enter surface =>
      some ({ self with keyboardFocusedWindow := self.getWindow surface }, none)
  | .leave _ =>
      some ({ self with
        keyboardFocusedWindow := none
        currentId := self.currentId + 1 }, none)
  | .pressed key =>
      match self.keyboardFocusedWindow with
      | none => some (self, none)
      | some focusedWindow =>
          if isModifierKey key then some (self, none)
          else some (self.press key, some (focusedWindow, .keyDown key false))
  | .released key =>
      match self.keyboardFocusedWindow with
      | none => some (self, none)
      | some focusedWindow =>
          if isModifierKey key then some (self, none)
          else some (self.release key, some (focusedWindow, .keyUp key))
  | .dropWindow surface => (self.dropWindow surface).map fun after => (after, none)
  | .fire ix => self.fire ix

omit [DecidableEq Surface] [DecidableEq Window] [DecidableEq Key] in
/-- What a timer can do. -/
theorem fire_cases {self after : WaylandKeyboard Surface Window Key} {ix : Nat}
    {given : Option (Window × KeyInput Key)} (fires : self.fire ix = some (after, given)) :
    (after = self ∧ ∃ timer window, timer ∈ self.timers ∧ timer.id = self.currentId ∧
      timer.rate ≠ 0 ∧ self.currentKeycode.isSome = true ∧
      self.keyboardFocusedWindow = some window ∧
      given = some (window, .keyDown timer.key true)) ∨
    after = self.dropTimer ix ∧ given = none := by
  rcases Option.bind_eq_some_iff.mp fires with ⟨timer, found, does⟩
  cases focus : self.keyboardFocusedWindow with
  | none =>
      simp only [focus] at does
      cases does
      exact .inr ⟨rfl, rfl⟩
  | some window =>
      simp only [focus] at does
      by_cases repeats : (timer.id = self.currentId ∧ self.currentKeycode.isSome = true) ∧
          timer.rate ≠ 0
      · rw [if_pos repeats] at does
        cases does
        rcases repeats with ⟨⟨current, held⟩, rate⟩
        exact .inl ⟨rfl, timer, window, List.mem_of_getElem? found, current, rate, held, rfl,
          rfl⟩
      · rw [if_neg repeats] at does
        cases does
        exact .inr ⟨rfl, rfl⟩

end WaylandKeyboard

/-! ## What was pressed last -/

/-- The last press of a key that is no modifier: the window that received it, if any, and
whether the key has been released since. -/
structure LastPress (Window Key : Type) where
  key : Key
  window : Option Window
  released : Bool
deriving DecidableEq, Repr

def LastPress.afterRelease {Window Key : Type} [DecidableEq Key] (self : LastPress Window Key)
    (key : Key) : LastPress Window Key :=
  if self.key = key then { self with released := true } else self

/-- A keyboard, and what was pressed last. -/
structure WatchedKeyboard (Surface Window Key : Type) where
  keyboard : WaylandKeyboard Surface Window Key
  lastPress : Option (LastPress Window Key)

namespace WatchedKeyboard

variable {Surface Window Key : Type} [DecidableEq Surface] [DecidableEq Window]
  [DecidableEq Key]

/-- What was pressed last, after an event. -/
def watch (isModifierKey : Key → Bool) (self : WatchedKeyboard Surface Window Key) :
    KeyboardEvent Surface Key → Option (LastPress Window Key)
  | .pressed key =>
      if isModifierKey key then self.lastPress
      else some ⟨key, self.keyboard.keyboardFocusedWindow, false⟩
  | .released key =>
      if isModifierKey key then self.lastPress
      else self.lastPress.map fun press => press.afterRelease key
  | _ => self.lastPress

def step (isModifierKey : Key → Bool) (self : WatchedKeyboard Surface Window Key)
    (event : KeyboardEvent Surface Key) : Option (WatchedKeyboard Surface Window Key) :=
  (self.keyboard.step isModifierKey event).map fun after =>
    { keyboard := after.1, lastPress := self.watch isModifierKey event }

omit [DecidableEq Surface] [DecidableEq Window] [DecidableEq Key] in
def start (windows : List (Surface × Window)) : WatchedKeyboard Surface Window Key :=
  ⟨.new windows, none⟩

/-- Whenever a timer presses a key again, it is the key that was pressed last and has not been
released since, in the window that received the press. -/
def RepeatsHeldKey (isModifierKey : Key → Bool) (self : WatchedKeyboard Surface Window Key) :
    Prop :=
  ∀ ix after window key,
    self.keyboard.step isModifierKey (.fire ix) = some (after, some (window, .keyDown key true)) →
      self.lastPress = some ⟨key, some window, false⟩

/-- A repeat is alive: its timer will press the key again in the window with the focus. -/
def Alive (self : WatchedKeyboard Surface Window Key) (timer : RepeatTimer Key) : Prop :=
  timer ∈ self.keyboard.timers ∧ timer.id = self.keyboard.currentId ∧ timer.rate ≠ 0 ∧
    self.keyboard.currentKeycode.isSome = true

/-- A window gets the focus while a repeat is alive only if it received the last press, and
the key has not been released since. -/
def Careful (self : WatchedKeyboard Surface Window Key) : KeyboardEvent Surface Key → Prop
  | .enter surface =>
      ∀ window timer, self.keyboard.getWindow surface = some window → self.Alive timer →
        self.lastPress = some ⟨timer.key, some window, false⟩
  | _ => True

/-! ## What a repeat that is alive belongs to -/

/-- The timer with the current number has the current key, which was pressed last in the
window with the focus and not released. -/
structure Tracked (watched : WatchedKeyboard Surface Window Key) : Prop where
  ids : ∀ {timer}, timer ∈ watched.keyboard.timers → timer.id ≤ watched.keyboard.currentId
  keys : ∀ {timer key}, timer ∈ watched.keyboard.timers → timer.id = watched.keyboard.currentId →
    watched.keyboard.currentKeycode = some key → timer.key = key
  alive : ∀ {timer window}, watched.Alive timer →
    watched.keyboard.keyboardFocusedWindow = some window →
      watched.lastPress = some ⟨timer.key, some window, false⟩

variable {isModifierKey : Key → Bool} {before after : WatchedKeyboard Surface Window Key}

omit [DecidableEq Surface] [DecidableEq Window] [DecidableEq Key] in
theorem tracked_start (windows : List (Surface × Window)) :
    Tracked (start windows : WatchedKeyboard Surface Window Key) where
  ids member := by cases member
  keys member := by cases member
  alive isAlive := by cases isAlive.1

omit [DecidableEq Surface] [DecidableEq Window] [DecidableEq Key] in
/-- Timers, the current key and the focus may go; what was pressed last may change where
nothing is repeated. -/
theorem Tracked.narrow (tracked : Tracked before)
    (timers : ∀ timer ∈ after.keyboard.timers, timer ∈ before.keyboard.timers)
    (id : after.keyboard.currentId = before.keyboard.currentId)
    (keycode : ∀ key, after.keyboard.currentKeycode = some key →
      before.keyboard.currentKeycode = some key)
    (focus : ∀ window, after.keyboard.keyboardFocusedWindow = some window →
      before.keyboard.keyboardFocusedWindow = some window)
    (press : ∀ window press, after.keyboard.keyboardFocusedWindow = some window →
      after.keyboard.currentKeycode = some press.key → before.lastPress = some press →
        after.lastPress = some press) :
    Tracked after where
  ids member := by
    rw [id]
    exact tracked.ids (timers _ member)
  keys member current isKey := by
    rw [id] at current
    exact tracked.keys (timers _ member) current (keycode _ isKey)
  alive {timer window} isAlive isFocus := by
    rcases isAlive with ⟨member, current, rate, isHeld⟩
    rcases Option.isSome_iff_exists.mp isHeld with ⟨key, isKey⟩
    rw [id] at current
    have held : before.keyboard.currentKeycode.isSome = true :=
      Option.isSome_iff_exists.mpr ⟨key, keycode key isKey⟩
    have last := tracked.alive ⟨timers timer member, current, rate, held⟩ (focus window isFocus)
    have same := tracked.keys (timers timer member) current (keycode key isKey)
    apply press window _ isFocus _ last
    rw [same]
    exact isKey

omit [DecidableEq Surface] [DecidableEq Window] [DecidableEq Key] in
/-- Without a focus nothing is repeated. -/
theorem Tracked.unfocused (tracked : Tracked before)
    (timers : ∀ timer ∈ after.keyboard.timers, timer ∈ before.keyboard.timers)
    (id : after.keyboard.currentId = before.keyboard.currentId)
    (keycode : ∀ key, after.keyboard.currentKeycode = some key →
      before.keyboard.currentKeycode = some key)
    (noFocus : after.keyboard.keyboardFocusedWindow = none) : Tracked after := by
  apply tracked.narrow timers id keycode
  · intro window isFocus
    rw [noFocus] at isFocus
    cases isFocus
  · intro window press isFocus
    rw [noFocus] at isFocus
    cases isFocus

omit [DecidableEq Surface] [DecidableEq Window] [DecidableEq Key] in
theorem Tracked.press (tracked : Tracked before) {window : Window} {key : Key}
    (isFocus : before.keyboard.keyboardFocusedWindow = some window) :
    Tracked (⟨before.keyboard.press key, some ⟨key, some window, false⟩⟩ :
      WatchedKeyboard Surface Window Key) := by
  have latest {timer : RepeatTimer Key}
      (member : timer ∈ (before.keyboard.press key).timers)
      (current : timer.id = before.keyboard.currentId + 1) : timer.key = key := by
    rcases List.mem_append.mp member with old | new
    · exact absurd (tracked.ids old) (by omega)
    · cases List.mem_singleton.mp new
      rfl
  constructor
  · intro timer member
    rcases List.mem_append.mp member with old | new
    · exact Nat.le_succ_of_le (tracked.ids old)
    · cases List.mem_singleton.mp new
      exact le_rfl
  · intro timer other member current isKey
    rw [latest member current]
    exact Option.some.inj isKey
  · intro timer other isAlive otherFocus
    have same : window = other := Option.some.inj (isFocus.symm.trans otherFocus)
    rw [latest isAlive.1 isAlive.2.1, same]

omit [DecidableEq Surface] [DecidableEq Window] in
theorem Tracked.release (tracked : Tracked before) (key : Key) :
    Tracked (⟨before.keyboard.release key,
      before.lastPress.map fun press => press.afterRelease key⟩ :
        WatchedKeyboard Surface Window Key) := by
  by_cases current : before.keyboard.currentKeycode = some key
  · have released : before.keyboard.release key =
        { before.keyboard with currentKeycode := none } := if_pos current
    rw [released]
    apply tracked.narrow
    · exact fun timer member => member
    · rfl
    · intro other isKey
      cases isKey
    · exact fun other otherFocus => otherFocus
    · intro other press _ isKey
      cases isKey
  · have kept : before.keyboard.release key = before.keyboard := if_neg current
    rw [kept]
    apply tracked.narrow
    · exact fun timer member => member
    · rfl
    · exact fun other isKey => isKey
    · exact fun other otherFocus => otherFocus
    · intro other press _ isKey last
      have different : press.key ≠ key := by
        intro same
        rw [same] at isKey
        exact current isKey
      change before.lastPress.map _ = some press
      rw [last, Option.map_some, LastPress.afterRelease, if_neg different]

omit [DecidableEq Key] in
theorem Tracked.dropWindow (tracked : Tracked before) {surface : Surface}
    {keyboard : WaylandKeyboard Surface Window Key}
    (drops : before.keyboard.dropWindow surface = some keyboard) :
    Tracked (⟨keyboard, before.lastPress⟩ : WatchedKeyboard Surface Window Key) := by
  rcases Option.bind_eq_some_iff.mp drops with ⟨closed, _, same⟩
  rcases Option.some.inj same with rfl
  apply tracked.narrow
  · exact fun timer member => member
  · rfl
  · exact fun key isKey => isKey
  · intro window isFocus
    exact (Option.filter_eq_some_iff.mp isFocus).1
  · exact fun _ press _ _ last => last

omit [DecidableEq Surface] [DecidableEq Window] [DecidableEq Key] in
/-- A timer that fires changes nothing but whether it is scheduled. -/
theorem Tracked.fire (tracked : Tracked before) {ix : Nat}
    {keyboard : WaylandKeyboard Surface Window Key} {given : Option (Window × KeyInput Key)}
    (fires : before.keyboard.fire ix = some (keyboard, given)) :
    Tracked (⟨keyboard, before.lastPress⟩ : WatchedKeyboard Surface Window Key) := by
  rcases WaylandKeyboard.fire_cases fires with ⟨rfl, _⟩ | ⟨rfl, _⟩
  · exact tracked
  · apply tracked.narrow
    · exact fun timer member => List.mem_of_mem_eraseIdx member
    · rfl
    · exact fun key isKey => isKey
    · exact fun window isFocus => isFocus
    · exact fun _ press _ _ last => last

theorem Tracked.step (tracked : Tracked before) {event : KeyboardEvent Surface Key}
    (careful : before.Careful event) (steps : before.step isModifierKey event = some after) :
    Tracked after := by
  rcases Option.map_eq_some_iff.mp steps with ⟨⟨keyboard, given⟩, moves, rfl⟩
  cases event with
  | repeatInfo rate =>
      cases moves
      apply tracked.narrow
      · exact fun timer member => member
      · rfl
      · exact fun key isKey => isKey
      · exact fun window isFocus => isFocus
      · exact fun _ press _ _ last => last
  | enter surface =>
      cases moves
      constructor
      · exact tracked.ids
      · exact tracked.keys
      · intro timer window isAlive isFocus
        exact careful window timer isFocus isAlive
  | leave surface =>
      cases moves
      constructor
      · intro timer member
        exact Nat.le_succ_of_le (tracked.ids member)
      · intro timer key member current
        exact absurd (current ▸ tracked.ids member) (Nat.not_succ_le_self _)
      · intro timer window _ isFocus
        cases isFocus
  | pressed key =>
      cases focus : before.keyboard.keyboardFocusedWindow with
      | none =>
          simp only [WaylandKeyboard.step, focus] at moves
          cases moves
          exact tracked.unfocused (fun timer member => member) rfl (fun other isKey => isKey)
            focus
      | some window =>
          simp only [WaylandKeyboard.step, focus] at moves
          by_cases modifier : isModifierKey key = true
          · rw [if_pos modifier] at moves
            cases moves
            rw [watch, if_pos modifier]
            exact tracked
          · rw [if_neg modifier] at moves
            cases moves
            rw [watch, if_neg modifier, focus]
            exact tracked.press focus
  | released key =>
      cases focus : before.keyboard.keyboardFocusedWindow with
      | none =>
          simp only [WaylandKeyboard.step, focus] at moves
          cases moves
          exact tracked.unfocused (fun timer member => member) rfl (fun other isKey => isKey)
            focus
      | some window =>
          simp only [WaylandKeyboard.step, focus] at moves
          by_cases modifier : isModifierKey key = true
          · rw [if_pos modifier] at moves
            cases moves
            rw [watch, if_pos modifier]
            exact tracked
          · rw [if_neg modifier] at moves
            cases moves
            rw [watch, if_neg modifier]
            exact tracked.release key
  | dropWindow surface =>
      rcases Option.map_eq_some_iff.mp moves with ⟨after, drops, same⟩
      cases same
      exact tracked.dropWindow drops
  | fire ix => exact tracked.fire moves

theorem Tracked.repeatsHeldKey (tracked : Tracked before) :
    RepeatsHeldKey isModifierKey before := by
  intro ix keyboard window key fires
  rcases WaylandKeyboard.fire_cases fires with ⟨_, timer, focused, member, current, rate, held,
    focus, same⟩ | ⟨_, noKey⟩
  · cases same
    exact tracked.alive ⟨member, current, rate, held⟩ focus
  · cases noKey

/-- Where no window gets the focus while a repeat of another one is alive, a repeated key is
the key held in the window that received its press. -/
theorem run_repeatsHeldKey {windows : List (Surface × Window)}
    {events : List (KeyboardEvent Surface Key)} {last : WatchedKeyboard Surface Window Key}
    (run : Run (step isModifierKey) Careful (start windows) events last) :
    RepeatsHeldKey isModifierKey last := by
  apply Tracked.repeatsHeldKey
  apply run.invariant fun _ watched => Tracked watched
  · exact tracked_start windows
  · exact fun tracked careful steps => tracked.step careful steps

omit [DecidableEq Surface] [DecidableEq Window] [DecidableEq Key] in
theorem fire_of_alive {timer : RepeatTimer Key} {window : Window} (isAlive : after.Alive timer)
    (focus : after.keyboard.keyboardFocusedWindow = some window) :
    ∃ ix, after.keyboard.fire ix =
      some (after.keyboard, some (window, .keyDown timer.key true)) := by
  rcases isAlive with ⟨member, current, rate, held⟩
  rcases List.getElem?_of_mem member with ⟨ix, found⟩
  apply Exists.intro ix
  rw [WaylandKeyboard.fire, found, focus]
  exact if_pos ⟨⟨current, held⟩, rate⟩

/-- The condition leaves out nothing else: where a window gets the focus against it, the
timer that is alive gives the key to the wrong window. -/
theorem careful_of_repeatsHeldKey {event : KeyboardEvent Surface Key}
    (steps : before.step isModifierKey event = some after)
    (repeats : RepeatsHeldKey isModifierKey after) : before.Careful event := by
  cases event with
  | enter surface =>
      rcases Option.some.inj steps with rfl
      intro window timer found isAlive
      let entered : WaylandKeyboard Surface Window Key :=
        { before.keyboard with keyboardFocusedWindow := before.keyboard.getWindow surface }
      have stillAlive : Alive ⟨entered, before.lastPress⟩ timer := isAlive
      rcases fire_of_alive stillAlive found with ⟨ix, fires⟩
      exact repeats ix _ window timer.key fires
  | _ => trivial

/-- The focus leaves the window and comes back while its key is held. -/
theorem run_repeatsHeldKey_back :
    ∃ last : WatchedKeyboard Nat Nat Nat, RepeatsHeldKey (fun _ => false) last ∧
      (last.keyboard.fire 1).map Prod.snd = some (some (10, .keyDown 31 true)) := by
  have runs : ∃ last : WatchedKeyboard Nat Nat Nat,
      Run (step fun _ => false) Careful (start [(1, 10), (2, 20)])
        [.enter 1, .pressed 30, .leave 1, .enter 2, .leave 2, .enter 1, .pressed 31] last ∧
      (last.keyboard.fire 1).map Prod.snd = some (some (10, .keyDown 31 true)) := by
    refine ⟨_, .cons ?_ rfl (.cons trivial rfl (.cons trivial rfl (.cons ?_ rfl
      (.cons trivial rfl (.cons ?_ rfl (.cons trivial rfl .nil)))))), rfl⟩
    · rintro window timer _ ⟨member, _⟩
      cases member
    · rintro window timer _ ⟨member, current, _⟩
      cases List.mem_singleton.mp member
      cases current
    · rintro window timer _ ⟨member, current, _⟩
      cases List.mem_singleton.mp member
      cases current
  rcases runs with ⟨last, run, repeats⟩
  exact ⟨last, run_repeatsHeldKey run, repeats⟩

/-- A window is closed while a key is held in it, and another one gets the focus. -/
theorem not_run_repeatsHeldKey :
    ¬ ∀ (events : List (KeyboardEvent Nat Nat)) (last : WatchedKeyboard Nat Nat Nat),
      Run (step fun _ => false) (fun _ _ => True) (start [(1, 10), (2, 20)]) events last →
        RepeatsHeldKey (fun _ => false) last := by
  intro repeats
  have closed : ∃ last : WatchedKeyboard Nat Nat Nat,
      [KeyboardEvent.enter 1, .pressed 30, .dropWindow 1, .enter 2].foldlM
        (step fun _ => false) (start [(1, 10), (2, 20)]) = some last ∧
      last.keyboard.step (fun _ => false) (.fire 0) =
        some (last.keyboard, some (20, .keyDown 30 true)) ∧
      last.lastPress = some ⟨30, some 10, false⟩ :=
    ⟨_, rfl, rfl, rfl⟩
  rcases closed with ⟨last, runs, fires, pressed⟩
  cases pressed.symm.trans (repeats _ last (.of_foldlM runs) 0 _ 20 30 fires)

end WatchedKeyboard

end Gpui
