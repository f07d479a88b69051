import Gpui.Dispatch.Tree
import Gpui.Keymap.Core

/-!
# Dispatching keystrokes

Keystrokes wait while they may become longer bindings.  Input that can no longer do
so is replayed: cut into segments, each the longest that some binding matches, or a
single keystroke if there is none.

Removing a keystroke from no input panics, which yields `none`.
-/

namespace Gpui

structure Replay (A : Type) where
  keystroke : Keystroke
  bindings : List (KeyBinding A)
deriving DecidableEq, Repr

structure DispatchResult (A : Type) where
  pending : List Keystroke := []
  pendingHasBinding : Bool := false
  bindings : List (KeyBinding A) := []
  toReplay : List (Replay A) := []
  contextStack : List KeyContext := []

variable {L A : Type} [Action A]

namespace DispatchTree

def bindingsForInput (self : DispatchTree L) (keymap : Keymap A) (input : List Keystroke)
    (dispatchPath : List DispatchNodeId) : List (KeyBinding A) × Bool × List KeyContext :=
  let contextStack := self.contextsOf dispatchPath
  let (bindings, partly) := keymap.bindingsForInput input contextStack
  (bindings, partly, contextStack)

/-- The loop of `replay_prefix`: the last position below a bound that ends a match from
the front of the input. -/
def lastMatch (self : DispatchTree L) (keymap : Keymap A) (input : List Keystroke)
    (dispatchPath : List DispatchNodeId) : Nat → Option Nat
  | 0 => none
  | last + 1 =>
      if (self.bindingsForInput keymap (input.take (last + 1)) dispatchPath).1.isEmpty then
        lastMatch self keymap input dispatchPath last
      else some last

def replayPrefix (self : DispatchTree L) (keymap : Keymap A) (input : List Keystroke)
    (dispatchPath : List DispatchNodeId) : Option (List Keystroke × List (Replay A)) :=
  match self.lastMatch keymap input dispatchPath input.length with
  | some last => do
      let bindings := (self.bindingsForInput keymap (input.take (last + 1)) dispatchPath).1
      let keystroke ← input[last]?
      return (input.drop (last + 1), [⟨keystroke, bindings⟩])
  | none => do
      let keystroke ← input.head?
      return (input.tail, [⟨keystroke, []⟩])

theorem replayPrefix_shortens {self : DispatchTree L} {keymap : Keymap A}
    {input suffix : List Keystroke} {dispatchPath : List DispatchNodeId}
    {toReplay : List (Replay A)}
    (replays : self.replayPrefix keymap input dispatchPath = some (suffix, toReplay)) :
    suffix.length < input.length := by
  rw [replayPrefix] at replays
  split at replays
  next last _ =>
    rcases Option.bind_eq_some_iff.mp replays with ⟨keystroke, here, returns⟩
    rcases Option.some.inj returns with ⟨⟩
    have within : last < input.length := (List.getElem?_eq_some_iff.mp here).1
    rw [List.length_drop]
    omega
  next =>
    rcases Option.bind_eq_some_iff.mp replays with ⟨keystroke, first, returns⟩
    rcases Option.some.inj returns with ⟨⟩
    cases input with
    | nil => cases first
    | cons _ rest => exact Nat.lt_succ_self _

def dispatchKey (self : DispatchTree L) (keymap : Keymap A) (pendingInput : List Keystroke)
    (keystroke : Keystroke) (dispatchPath : List DispatchNodeId) : Option (DispatchResult A) :=
  let input := pendingInput ++ [keystroke]
  let (bindings, pending, contextStack) := self.bindingsForInput keymap input dispatchPath
  if pending then
    some { pending := input, pendingHasBinding := !bindings.isEmpty, contextStack }
  else if !bindings.isEmpty then some { bindings, contextStack }
  else if input.length = 1 then some { contextStack }
  else
    match _replays : self.replayPrefix keymap input.dropLast dispatchPath with
    | none => none
    | some (suffix, toReplay) => do
        let result ← dispatchKey self keymap suffix keystroke dispatchPath
        return { result with toReplay := toReplay ++ result.toReplay }
termination_by pendingInput.length
decreasing_by
  have shorter := replayPrefix_shortens _replays
  simpa [input] using shorter

def flushDispatch (self : DispatchTree L) (keymap : Keymap A) (input : List Keystroke)
    (dispatchPath : List DispatchNodeId) : Option (List (Replay A)) :=
  match _replays : self.replayPrefix keymap input dispatchPath with
  | none => none
  | some (suffix, toReplay) =>
      if suffix.isEmpty then some toReplay
      else do
        let more ← flushDispatch self keymap suffix dispatchPath
        return toReplay ++ more
termination_by input.length
decreasing_by exact replayPrefix_shortens _replays

/-! ## Segments -/

/-- A segment of the input and what is replayed for it, when the segment was cut off
from a longer input. -/
structure Represents (keymap : Keymap A) (contextStack : List KeyContext)
    (segment rest : List Keystroke) (replay : Replay A) : Prop where
  last : segment.getLast? = some replay.keystroke
  bindings : replay.bindings = (keymap.bindingsForInput segment contextStack).1
  found : 1 < segment.length → replay.bindings ≠ []
  longest : ∀ longer, longer <+: segment ++ rest → segment.length < longer.length →
    (keymap.bindingsForInput longer contextStack).1 = []

/-- The input is the segments of the replays, in order, and a suffix. -/
inductive Replays (keymap : Keymap A) (contextStack : List KeyContext) :
    List Keystroke → List (Replay A) → List Keystroke → Prop where
  | done {suffix : List Keystroke} : Replays keymap contextStack suffix [] suffix
  | segment {segment rest suffix : List Keystroke} {replay : Replay A} {replays : List (Replay A)}
      (represents : Represents keymap contextStack segment rest replay)
      (more : Replays keymap contextStack rest replays suffix) :
      Replays keymap contextStack (segment ++ rest) (replay :: replays) suffix

/-- What is left of the input, with the new keystroke, is kept, or is what the bindings
match, or is the keystroke alone. -/
def Finishes (keymap : Keymap A) (contextStack : List KeyContext) (input : List Keystroke)
    (result : DispatchResult A) : Prop :=
  let (bindings, pending) := keymap.bindingsForInput input contextStack
  result.pending = input ∧ pending = true ∧ result.bindings = [] ∧
      result.pendingHasBinding = !bindings.isEmpty ∨
    result.pending = [] ∧ pending = false ∧ result.bindings = bindings ∧
      (bindings ≠ [] ∨ input.length = 1)

theorem lastMatch_eq_some {self : DispatchTree L} {keymap : Keymap A} {input : List Keystroke}
    {dispatchPath : List DispatchNodeId} {bound last : Nat}
    (isLast : self.lastMatch keymap input dispatchPath bound = some last) :
    last < bound ∧
      (keymap.bindingsForInput (input.take (last + 1)) (self.contextsOf dispatchPath)).1 ≠ [] ∧
      ∀ later, last < later → later < bound →
        (keymap.bindingsForInput (input.take (later + 1)) (self.contextsOf dispatchPath)).1 = [] := by
  induction bound with
  | zero => cases isLast
  | succ bound ih =>
      rw [lastMatch] at isLast
      split at isLast
      next unmatched =>
        rcases ih isLast with ⟨less, found, later⟩
        refine ⟨Nat.lt_succ_of_lt less, found, fun other after within => ?_⟩
        rcases Nat.lt_succ_iff_lt_or_eq.mp within with inside | rfl
        · exact later other after inside
        · exact List.isEmpty_iff.mp unmatched
      next matched =>
        rcases Option.some.inj isLast with rfl
        refine ⟨Nat.lt_succ_self _, fun empty => matched (List.isEmpty_iff.mpr empty), ?_⟩
        intro other after within
        omega

theorem lastMatch_eq_none {self : DispatchTree L} {keymap : Keymap A} {input : List Keystroke}
    {dispatchPath : List DispatchNodeId} {bound : Nat}
    (noLast : self.lastMatch keymap input dispatchPath bound = none) :
    ∀ last, last < bound →
      (keymap.bindingsForInput (input.take (last + 1)) (self.contextsOf dispatchPath)).1 = [] := by
  induction bound with
  | zero => nofun
  | succ bound ih =>
      rw [lastMatch] at noLast
      split at noLast
      next unmatched =>
        intro last within
        rcases Nat.lt_succ_iff_lt_or_eq.mp within with inside | rfl
        · exact ih noLast last inside
        · exact List.isEmpty_iff.mp unmatched
      next => cases noLast

/-- A longer prefix ends behind the last match. -/
private theorem eq_take_of_prefix {longer input : List Keystroke} {length : Nat}
    (isPrefix : longer <+: input) (more : length < longer.length) :
    ∃ later, length ≤ later ∧ later < input.length ∧ longer = input.take (later + 1) := by
  refine ⟨longer.length - 1, by omega, ?_, ?_⟩
  · have within := isPrefix.length_le
    omega
  · rw [Nat.sub_add_cancel (Nat.one_le_of_lt more)]
    exact (List.prefix_iff_eq_take.mp isPrefix)

/-- Input that is not empty loses a segment in front. -/
theorem replayPrefix_represents (self : DispatchTree L) (keymap : Keymap A)
    {input : List Keystroke} (nonempty : input ≠ []) (dispatchPath : List DispatchNodeId) :
    ∃ segment suffix replay, input = segment ++ suffix ∧
      self.replayPrefix keymap input dispatchPath = some (suffix, [replay]) ∧
      Represents keymap (self.contextsOf dispatchPath) segment suffix replay := by
  cases isLast : self.lastMatch keymap input dispatchPath input.length with
  | some last =>
      rcases lastMatch_eq_some isLast with ⟨within, found, later⟩
      have here : input[last]? = some input[last] := List.getElem?_eq_getElem within
      have length : (input.take (last + 1)).length = last + 1 := by
        rw [List.length_take]
        omega
      refine ⟨input.take (last + 1), input.drop (last + 1),
        ⟨input[last], (self.bindingsForInput keymap (input.take (last + 1)) dispatchPath).1⟩,
        (List.take_append_drop _ _).symm, ?_, ?_⟩
      · simp only [replayPrefix, isLast, here, Option.bind_eq_bind, Option.bind_some]
        rfl
      · constructor
        case last =>
          rw [List.getLast?_eq_getElem?, length, Nat.add_sub_cancel,
            List.getElem?_take_of_lt (Nat.lt_succ_self last), here]
        case bindings => rfl
        case found => exact fun _ => found
        case longest =>
          rw [List.take_append_drop, length]
          intro longer isPrefix more
          rcases eq_take_of_prefix isPrefix more with ⟨position, after, inside, rfl⟩
          exact later position after inside
  | none =>
      have unmatched := lastMatch_eq_none isLast
      cases input with
      | nil => exact absurd rfl nonempty
      | cons keystroke rest =>
          refine ⟨[keystroke], rest, ⟨keystroke, []⟩, rfl, ?_, ?_⟩
          · simp only [replayPrefix, isLast]
            rfl
          · constructor
            case last => rfl
            case bindings => exact (unmatched 0 (Nat.zero_lt_succ _)).symm
            case found => nofun
            case longest =>
              intro longer isPrefix more
              rcases eq_take_of_prefix isPrefix more with ⟨position, after, inside, rfl⟩
              exact unmatched position inside

/-- A keystroke is dispatched without losing or reordering any: the pending input is
the segments of the replays and a suffix, and the suffix and the keystroke are what the
result keeps, binds or leaves to the keystroke alone. -/
theorem dispatchKey_segments (self : DispatchTree L) (keymap : Keymap A)
    (pendingInput : List Keystroke) (keystroke : Keystroke) (dispatchPath : List DispatchNodeId) :
    ∃ result suffix,
      self.dispatchKey keymap pendingInput keystroke dispatchPath = some result ∧
        Replays keymap (self.contextsOf dispatchPath) pendingInput result.toReplay suffix ∧
        Finishes keymap (self.contextsOf dispatchPath) (suffix ++ [keystroke]) result := by
  induction length : pendingInput.length using Nat.strong_induction_on generalizing pendingInput with
  | _ n ih =>
      subst length
      rw [dispatchKey]
      cases found : keymap.bindingsForInput (pendingInput ++ [keystroke])
        (self.contextsOf dispatchPath) with
      | mk bindings pending =>
          have whole : self.bindingsForInput keymap (pendingInput ++ [keystroke]) dispatchPath =
              (bindings, pending, self.contextsOf dispatchPath) := by
            simp only [bindingsForInput, found]
          simp only [whole]
          cases pending with
          | true =>
              refine ⟨_, pendingInput, rfl, .done, ?_⟩
              simp [Finishes, found]
          | false =>
              by_cases matched : bindings = []
              · subst matched
                simp only [Bool.false_eq_true, if_false, List.isEmpty_nil, Bool.not_true]
                by_cases single : (pendingInput ++ [keystroke]).length = 1
                · rw [if_pos single]
                  refine ⟨_, pendingInput, rfl, .done, ?_⟩
                  simp [Finishes, found, single]
                · rw [if_neg single]
                  have nonempty : pendingInput ≠ [] := by
                    rintro rfl
                    exact single rfl
                  rcases replayPrefix_represents self keymap nonempty dispatchPath with
                    ⟨segment, rest, replay, rfl, replays, represents⟩
                  have shorter : rest.length < (segment ++ rest).length :=
                    replayPrefix_shortens replays
                  rcases ih rest.length shorter rest rfl with
                    ⟨result, suffix, dispatches, more, finishes⟩
                  split
                  next nothing =>
                    rw [List.dropLast_concat, replays] at nothing
                    cases nothing
                  next toSuffix toReplay something =>
                    rw [List.dropLast_concat, replays] at something
                    rcases Option.some.inj something with ⟨⟩
                    rw [dispatches]
                    exact ⟨_, suffix, rfl, .segment represents more, finishes⟩
              · have some : bindings.isEmpty = false := by
                  simpa using matched
                simp only [some]
                refine ⟨_, pendingInput, rfl, .done, ?_⟩
                simp [Finishes, found, matched]

/-- Pending input is flushed without losing or reordering any. -/
theorem flushDispatch_segments (self : DispatchTree L) (keymap : Keymap A)
    {input : List Keystroke} (nonempty : input ≠ []) (dispatchPath : List DispatchNodeId) :
    ∃ replays, self.flushDispatch keymap input dispatchPath = some replays ∧
      Replays keymap (self.contextsOf dispatchPath) input replays [] := by
  induction length : input.length using Nat.strong_induction_on generalizing input with
  | _ n ih =>
      subst length
      rcases replayPrefix_represents self keymap nonempty dispatchPath with
        ⟨segment, rest, replay, rfl, replays, represents⟩
      have shorter : rest.length < (segment ++ rest).length := replayPrefix_shortens replays
      rw [flushDispatch]
      split
      next nothing =>
        rw [replays] at nothing
        cases nothing
      next suffix toReplay something =>
        rw [replays] at something
        rcases Option.some.inj something with ⟨⟩
        by_cases last : rest = []
        · subst last
          exact ⟨[replay], rfl, .segment represents .done⟩
        · have notEmpty : rest.isEmpty = false := by simpa using last
          rcases ih rest.length shorter last rfl with ⟨more, flushes, moreReplays⟩
          rw [notEmpty, if_neg Bool.false_ne_true, flushes]
          exact ⟨_, rfl, .segment represents moreReplays⟩

/-- No keystroke is lost or reordered, by dispatching another or by flushing. -/
theorem keystrokes_kept_in_order (self : DispatchTree L) (keymap : Keymap A)
    (dispatchPath : List DispatchNodeId) :
    (∀ pendingInput keystroke, ∃ result suffix,
      self.dispatchKey keymap pendingInput keystroke dispatchPath = some result ∧
        Replays keymap (self.contextsOf dispatchPath) pendingInput result.toReplay suffix ∧
        Finishes keymap (self.contextsOf dispatchPath) (suffix ++ [keystroke]) result) ∧
      ∀ pendingInput, pendingInput ≠ [] → ∃ replays,
        self.flushDispatch keymap pendingInput dispatchPath = some replays ∧
          Replays keymap (self.contextsOf dispatchPath) pendingInput replays [] :=
  ⟨fun pendingInput keystroke => self.dispatchKey_segments keymap pendingInput keystroke dispatchPath,
    fun _ nonempty => self.flushDispatch_segments keymap nonempty dispatchPath⟩

/-- A keystroke without bindings is replayed alone. -/
theorem keystrokes_kept_in_order_alone :
    ∃ replays,
      (new : DispatchTree Nat).flushDispatch (Keymap.new [sampleBinding ["a"] .alpha "Editor"])
          [sampleKeystroke "b"] [] = some replays ∧
        Replays (Keymap.new [sampleBinding ["a"] .alpha "Editor"]) [] [sampleKeystroke "b"]
          replays [] :=
  (keystrokes_kept_in_order (new : DispatchTree Nat)
    (Keymap.new [sampleBinding ["a"] .alpha "Editor"]) []).2 _ (by simp)

end DispatchTree

end Gpui
