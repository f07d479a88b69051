import Gpui.Keymap.Context
import Gpui.Library.StableSort

/-!
# Keymaps

A keymap lists its bindings in the order they were added, with the positions of
the bindings of each action type and of the `NoAction` bindings, which disable
others.  Actions are any type with the identity and the comparison of the
`Action` trait.
-/

namespace Gpui

open Gpui.Library

structure Modifiers where
  control : Bool := false
  alt : Bool := false
  shift : Bool := false
  platform : Bool := false
  function : Bool := false
deriving DecidableEq, Repr

structure Keystroke where
  modifiers : Modifiers
  key : String
  keyChar : Option String
deriving DecidableEq, Repr

/-- A keystroke of a binding, without the display fields of Windows. -/
structure KeybindingKeystroke where
  inner : Keystroke
deriving DecidableEq, Repr

namespace Keystroke

/-- Off Windows, a typed character counts as well as the key it was typed with. -/
def shouldMatch (self : Keystroke) (target : KeybindingKeystroke) : Bool :=
  let byKeyChar :=
    match self.keyChar.filter fun keyChar => keyChar ≠ self.key with
    | some keyChar =>
        let imeModifiers : Modifiers :=
          { control := self.modifiers.control, platform := self.modifiers.platform }
        target.inner.key = keyChar && target.inner.modifiers = imeModifiers
    | none => false
  byKeyChar || (target.inner.modifiers = self.modifiers && target.inner.key = self.key)

end Keystroke

/-- The part of the `Action` trait that keymaps use.  As for any `PartialEq`,
the comparison is transitive. -/
class Action (A : Type) where
  typeId : A → Nat
  partialEq : A → A → Bool
  noActionTypeId : Nat
  partialEq_trans : ∀ {first second third : A}, partialEq first second = true →
    partialEq second third = true → partialEq first third = true

def isNoAction {A : Type} [Action A] (action : A) : Bool :=
  Action.typeId action = Action.noActionTypeId A

structure KeyBinding (A : Type) where
  action : A
  keystrokes : List KeybindingKeystroke
  contextPredicate : Option KeyBindingContextPredicate
  metaIndex : Option UInt32
deriving DecidableEq, Repr

namespace KeyBinding

variable {A : Type}

/-- Whether the typed keystrokes begin the binding, and if so whether the
binding goes on after them. -/
def matchKeystrokes (self : KeyBinding A) (typed : List Keystroke) : Option Bool :=
  if self.keystrokes.length < typed.length then none
  else if (self.keystrokes.zip typed).all fun pair => pair.2.shouldMatch pair.1 then
    some (decide (self.keystrokes.length > typed.length))
  else none

/-- The keystrokes of a binding, typed. -/
def typed (self : KeyBinding A) : List Keystroke :=
  self.keystrokes.map KeybindingKeystroke.inner

variable [Action A]

/-- A `NoAction` binding the search stops at: one of the user, whose metadata
index is zero, or one without metadata. -/
def stops (self : KeyBinding A) : Bool :=
  isNoAction self.action && self.metaIndex.all fun source => source = 0

end KeyBinding

/-- Positions of the bindings that satisfy a test. -/
def indicesWhere {A : Type} (test : KeyBinding A → Bool) (bindings : List (KeyBinding A)) :
    List Nat :=
  (bindings.zipIdx.filter fun entry => test entry.1).map Prod.snd

structure Keymap (A : Type) [Action A] where
  bindings : List (KeyBinding A)
  bindingIndicesByActionId : Nat → List Nat
  noActionBindingIndices : List Nat
  version : Nat
  bindingIndices_eq : ∀ actionId, bindingIndicesByActionId actionId =
    indicesWhere (fun binding =>
      !isNoAction binding.action && Action.typeId binding.action = actionId) bindings
  noActionIndices_eq : noActionBindingIndices =
    indicesWhere (fun binding => isNoAction binding.action) bindings

/-- A binding that matches the whole input, with the depth it matches at. -/
structure Matched (A : Type) where
  depth : Nat
  index : Nat
  binding : KeyBinding A
deriving DecidableEq, Repr

theorem indicesWhere_append {A : Type} (test : KeyBinding A → Bool)
    (bindings : List (KeyBinding A)) (binding : KeyBinding A) :
    indicesWhere test (bindings ++ [binding]) =
      indicesWhere test bindings ++ if test binding then [bindings.length] else [] := by
  cases passed : test binding <;>
    simp [indicesWhere, List.zipIdx_append, passed]

theorem mem_indicesWhere {A : Type} {test : KeyBinding A → Bool}
    {bindings : List (KeyBinding A)} {index : Nat} :
    index ∈ indicesWhere test bindings ↔
      ∃ binding, bindings[index]? = some binding ∧ test binding = true := by
  constructor
  · intro member
    obtain ⟨⟨binding, position⟩, inFilter, rfl⟩ := List.mem_map.mp member
    obtain ⟨listed, passed⟩ := List.mem_filter.mp inFilter
    exact ⟨binding, List.mem_zipIdx_iff_getElem?.mp listed, passed⟩
  · rintro ⟨binding, here, passed⟩
    exact List.mem_map.mpr ⟨(binding, index),
      List.mem_filter.mpr ⟨List.mem_zipIdx_iff_getElem?.mpr here, passed⟩, rfl⟩

namespace Keymap

variable {A : Type} [Action A]

/-- `Keymap::default`. -/
def empty : Keymap A where
  bindings := []
  bindingIndicesByActionId := fun _ => []
  noActionBindingIndices := []
  version := 0
  bindingIndices_eq := fun _ => rfl
  noActionIndices_eq := rfl

/-- One iteration of `add_bindings`. -/
def addBinding (self : Keymap A) (binding : KeyBinding A) : Keymap A where
  bindings := self.bindings ++ [binding]
  bindingIndicesByActionId := fun actionId =>
    self.bindingIndicesByActionId actionId ++
      if !isNoAction binding.action && Action.typeId binding.action = actionId then
        [self.bindings.length]
      else []
  noActionBindingIndices :=
    self.noActionBindingIndices ++
      if isNoAction binding.action then [self.bindings.length] else []
  version := self.version
  bindingIndices_eq := fun actionId => by
    rw [self.bindingIndices_eq, indicesWhere_append]
  noActionIndices_eq := by
    rw [self.noActionIndices_eq, indicesWhere_append]

def addBindings (self : Keymap A) (bindings : List (KeyBinding A)) : Keymap A :=
  { bindings.foldl addBinding self with version := self.version + 1 }

def new (bindings : List (KeyBinding A)) : Keymap A :=
  empty.addBindings bindings

def clear (self : Keymap A) : Keymap A :=
  { (empty : Keymap A) with version := self.version + 1 }

theorem foldl_addBinding_bindings (self : Keymap A) (bindings : List (KeyBinding A)) :
    (bindings.foldl addBinding self).bindings = self.bindings ++ bindings := by
  induction bindings generalizing self with
  | nil => simp
  | cons binding bindings ih =>
      rw [List.foldl_cons, ih]
      simp [addBinding]

@[simp]
theorem new_bindings (bindings : List (KeyBinding A)) : (new bindings).bindings = bindings :=
  foldl_addBinding_bindings empty bindings

/-! ## Bindings for an input -/

/-- The deepest depth at which the binding applies, or none. -/
def bindingEnabled (binding : KeyBinding A) (contexts : List KeyContext) : Option Nat :=
  match binding.contextPredicate with
  | some predicate => predicate.depthOf contexts
  | none => some contexts.length

/-- The enabled bindings that match the whole input, last added first. -/
def matchedBindings (self : Keymap A) (input : List Keystroke) (contextStack : List KeyContext) :
    List (Matched A) :=
  self.bindings.zipIdx.reverse.filterMap fun entry => do
    let depth ← bindingEnabled entry.1 contextStack
    let pending ← entry.1.matchKeystrokes input
    if pending then none else some ⟨depth, entry.2, entry.1⟩

/-- The enabled bindings that go on after the input, last added first. -/
def pendingBindings (self : Keymap A) (input : List Keystroke) (contextStack : List KeyContext) :
    List (Nat × KeyBinding A) :=
  self.bindings.zipIdx.reverse.filterMap fun entry => do
    let _ ← bindingEnabled entry.1 contextStack
    let pending ← entry.1.matchKeystrokes input
    if pending then some (entry.2, entry.1) else none

/-- Deeper matches come first, then bindings added later. -/
def precedence (entry : Matched A) : Natᵒᵈ ×ₗ Natᵒᵈ :=
  toLex (OrderDual.toDual entry.depth, OrderDual.toDual entry.index)

/-- The loop over the sorted matches. -/
def collectBindings : List (Matched A) → List (KeyBinding A) × Option Nat
  | [] => ([], none)
  | entry :: rest =>
      if isNoAction entry.binding.action then
        match entry.binding.metaIndex with
        | some source => if source = 0 then ([], none) else collectBindings rest
        | none => ([], none)
      else (entry.binding :: (collectBindings rest).1, some entry.index)

/-- The loop over the pending bindings, in the order they were added. -/
def collectPending (firstBindingIndex : Option Nat) (pending : Finset (List KeybindingKeystroke))
    (entry : Nat × KeyBinding A) : Finset (List KeybindingKeystroke) :=
  if firstBindingIndex.any fun first => first > entry.1 then pending
  else if isNoAction entry.2.action then pending.erase entry.2.keystrokes
  else insert entry.2.keystrokes pending

def bindingsForInput (self : Keymap A) (input : List Keystroke) (contextStack : List KeyContext) :
    List (KeyBinding A) × Bool :=
  let matchedBindings := sortByKey precedence (self.matchedBindings input contextStack)
  let (bindings, firstBindingIndex) := collectBindings matchedBindings
  let pending := (self.pendingBindings input contextStack).reverse.foldl
    (collectPending firstBindingIndex) ∅
  (bindings, decide (pending ≠ ∅))

/-! ## Bindings for an action -/

/-- Whether a later `NoAction` binding hides a binding, going by their
predicates. -/
def nullBindingMatches (nullBinding binding : KeyBinding A) : Bool :=
  nullBinding.keystrokes = binding.keystrokes &&
    match nullBinding.contextPredicate, binding.contextPredicate with
    | none, _ => true
    | some _, none => false
    | some nullPredicate, some predicate => nullPredicate.isSuperset predicate

def bindingsForAction (self : Keymap A) (action : A) : List (KeyBinding A) :=
  (self.bindingIndicesByActionId (Action.typeId action)).filterMap fun index => do
    let binding ← self.bindings[index]?
    if !Action.partialEq binding.action action then none
    else if self.noActionBindingIndices.any fun nullIndex =>
        nullIndex > index && (self.bindings[nullIndex]?).any fun nullBinding =>
          nullBindingMatches nullBinding binding
    then none
    else some binding

end Keymap

/-! ## Sample actions -/

inductive SampleAction where
  | noAction
  | alpha
  | beta
deriving DecidableEq, Repr

instance : Action SampleAction where
  typeId
    | .noAction => 0
    | .alpha => 1
    | .beta => 2
  partialEq first second := first = second
  noActionTypeId := 0
  partialEq_trans firstSecond secondThird :=
    decide_eq_true ((of_decide_eq_true firstSecond).trans (of_decide_eq_true secondThird))

/-- A keystroke without modifiers. -/
def sampleKeystroke (key : String) : Keystroke where
  modifiers := {}
  key := key
  keyChar := none

/-- A binding of the user's keymap. -/
def sampleBinding (keys : List String) (action : SampleAction) (context : String) :
    KeyBinding SampleAction where
  action := action
  keystrokes := keys.map fun key => ⟨sampleKeystroke key⟩
  contextPredicate := some (.identifier context)
  metaIndex := none

end Gpui
