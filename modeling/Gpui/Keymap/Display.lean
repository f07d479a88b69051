import Gpui.Keymap.Precedence

/-!
# Displayed bindings

The bindings shown for an action are those of the keymap that no later `NoAction`
binding covers by its predicate, filtered by what their keystrokes would
dispatch.  The filter looks at the action of the binding that wins, not at the
candidate itself.
-/

namespace Gpui

variable {A : Type} [Action A]

namespace DispatchTree

def bindingMatchesPredicateAndNotShadowed (keymap : Keymap A) (binding : KeyBinding A)
    (contextStack : List KeyContext) : Bool :=
  match (keymap.bindingsForInput binding.typed contextStack).1.head? with
  | some found => Action.partialEq found.action binding.action
  | none => false

def bindingsForAction (keymap : Keymap A) (action : A) (contextStack : List KeyContext) :
    List (KeyBinding A) :=
  (keymap.bindingsForAction action).filter fun binding =>
    bindingMatchesPredicateAndNotShadowed keymap binding contextStack

def highestPrecedenceBindingForAction (keymap : Keymap A) (action : A)
    (contextStack : List KeyContext) : Option (KeyBinding A) :=
  (keymap.bindingsForAction action).reverse.find? fun binding =>
    bindingMatchesPredicateAndNotShadowed keymap binding contextStack

/-- The single binding is the last of the list. -/
theorem highestPrecedenceBindingForAction_eq (keymap : Keymap A) (action : A)
    (contextStack : List KeyContext) :
    highestPrecedenceBindingForAction keymap action contextStack =
      (bindingsForAction keymap action contextStack).getLast? := by
  rw [highestPrecedenceBindingForAction, bindingsForAction, ← List.head?_reverse,
    ← List.filter_reverse, List.head?_filter]

end DispatchTree

namespace Keymap

/-- The binding is for the action. -/
def IsFor (binding : KeyBinding A) (action : A) : Prop :=
  Action.typeId binding.action = Action.typeId action ∧
    Action.partialEq binding.action action = true

/-- A later `NoAction` binding covers the binding at `index` by its predicate. -/
def Suppressed (self : Keymap A) (index : Nat) (binding : KeyBinding A) : Prop :=
  ∃ nullIndex nullBinding, index < nullIndex ∧ self.bindings[nullIndex]? = some nullBinding ∧
    isNoAction nullBinding.action = true ∧ nullBindingMatches nullBinding binding = true

/-- The keymap lists the binding for display: some entry of it is a binding of an
action that no later entry suppresses. -/
def Listed (self : Keymap A) (binding : KeyBinding A) : Prop :=
  ∃ index, self.bindings[index]? = some binding ∧ isNoAction binding.action = false ∧
    ¬ self.Suppressed index binding

theorem mem_bindingsForAction {self : Keymap A} {action : A} {binding : KeyBinding A} :
    binding ∈ self.bindingsForAction action ↔ IsFor binding action ∧ self.Listed binding := by
  simp only [bindingsForAction, List.mem_filterMap, self.bindingIndices_eq,
    self.noActionIndices_eq, mem_indicesWhere, Option.bind_eq_bind, Option.bind_eq_some_iff]
  have suppressed_iff : ∀ index, ((indicesWhere (fun binding => isNoAction binding.action)
      self.bindings).any fun nullIndex => nullIndex > index &&
        (self.bindings[nullIndex]?).any fun nullBinding =>
          nullBindingMatches nullBinding binding) = true ↔ self.Suppressed index binding := by
    intro index
    simp only [List.any_eq_true, mem_indicesWhere, Bool.and_eq_true, Option.any_eq_true,
      decide_eq_true_eq, gt_iff_lt]
    constructor
    · rintro ⟨nullIndex, ⟨listed, here, isNull⟩, later, nullBinding, hereAgain, covers⟩
      obtain rfl := Option.some.inj (here.symm.trans hereAgain)
      exact ⟨nullIndex, listed, later, here, isNull, covers⟩
    · rintro ⟨nullIndex, nullBinding, later, here, isNull, covers⟩
      exact ⟨nullIndex, ⟨nullBinding, here, isNull⟩, later, nullBinding, here, covers⟩
  constructor
  · rintro ⟨index, ⟨entry, here, test⟩, found, hereAgain, kept⟩
    obtain rfl := Option.some.inj (here.symm.trans hereAgain)
    simp only [Bool.and_eq_true, Bool.not_eq_true', decide_eq_true_eq] at test
    split at kept
    · simp at kept
    · rename_i same
      split at kept
      · simp at kept
      · rename_i unsuppressed
        obtain rfl := Option.some.inj kept
        refine ⟨⟨test.2, by simpa using same⟩, index, here, test.1, ?_⟩
        exact fun suppressed => unsuppressed ((suppressed_iff index).mpr suppressed)
  · rintro ⟨⟨sameType, same⟩, index, here, isAction, unsuppressed⟩
    refine ⟨index, ⟨binding, here, by simp [isAction, sameType]⟩, binding, here, ?_⟩
    rw [if_neg (by simp [same]), if_neg fun any => unsuppressed ((suppressed_iff index).mp any)]

/-- What is displayed, in terms of what wins. -/
theorem mem_displayed {self : Keymap A} {action : A} {contextStack : List KeyContext}
    {binding : KeyBinding A} :
    binding ∈ DispatchTree.bindingsForAction self action contextStack ↔
      IsFor binding action ∧ self.Listed binding ∧
        ∃ winner, self.Wins binding.typed contextStack winner ∧
          Action.partialEq winner.binding.action binding.action = true := by
  rw [DispatchTree.bindingsForAction, List.mem_filter, mem_bindingsForAction, and_assoc,
    DispatchTree.bindingMatchesPredicateAndNotShadowed]
  refine and_congr_right fun _ => and_congr_right fun _ => ?_
  cases first : (self.bindingsForInput binding.typed contextStack).1.head? with
  | none =>
      simp only [Bool.false_eq_true, false_iff]
      rintro ⟨winner, wins, -⟩
      have found := head?_bindingsForInput.2 ⟨winner, rfl, wins⟩
      simp [first] at found
  | some found =>
      simp only
      constructor
      · intro same
        obtain ⟨winner, rfl, wins⟩ := head?_bindingsForInput.1 first
        exact ⟨winner, wins, same⟩
      · rintro ⟨winner, wins, same⟩
        have winnerFirst := head?_bindingsForInput.2 ⟨winner, rfl, wins⟩
        rw [first] at winnerFirst
        exact Option.some.inj winnerFirst ▸ same

/-- Displayed bindings are enabled and dispatch their action, and a binding that
wins its own keystrokes is displayed for its own action. -/
def DisplayAgrees (self : Keymap A) (contextStack : List KeyContext) : Prop :=
  (∀ action binding, binding ∈ DispatchTree.bindingsForAction self action contextStack →
    (bindingEnabled binding contextStack).isSome = true ∧
    ∃ found, (self.bindingsForInput binding.typed contextStack).1.head? = some found ∧
      Action.partialEq found.action action = true) ∧
  ∀ binding, (self.bindingsForInput binding.typed contextStack).1.head? = some binding →
    binding ∈ DispatchTree.bindingsForAction self binding.action contextStack

/-- A listed binding that is not enabled has keystrokes that dispatch the same
action, and some action is its own. -/
def DisabledTwin (self : Keymap A) (contextStack : List KeyContext) (binding : KeyBinding A) :
    Prop :=
  self.Listed binding ∧ bindingEnabled binding contextStack = none ∧
    (∃ action, IsFor binding action) ∧
    ∃ winner, self.Wins binding.typed contextStack winner ∧
      Action.partialEq winner.binding.action binding.action = true

/-- One shortcut bound to the same action in the pane and in the editor. -/
def twins : Keymap SampleAction :=
  new [sampleBinding ["a"] .alpha "pane", sampleBinding ["a"] .alpha "editor"]

end Keymap

end Gpui
