import Mathlib

/-!
# Key contexts and their predicates

A context stack lists the key contexts from the root to the focused element.  A
predicate is evaluated on a front part of the stack, its slice; the last context
of the slice answers the atoms, while a negation looks at the whole stack.
-/

namespace Gpui

structure ContextEntry where
  key : String
  value : Option String
deriving DecidableEq, Repr

structure KeyContext where
  entries : List ContextEntry
deriving DecidableEq, Repr

namespace KeyContext

def contains (self : KeyContext) (key : String) : Bool :=
  self.entries.any fun entry => entry.key = key

def get (self : KeyContext) (key : String) : Option String :=
  (self.entries.find? fun entry => entry.key = key).bind ContextEntry.value

/-- A context with a single identifier. -/
def named (identifier : String) : KeyContext :=
  ⟨[⟨identifier, none⟩]⟩

end KeyContext

inductive KeyBindingContextPredicate where
  | identifier (name : String)
  | equal (left right : String)
  | notEqual (left right : String)
  | descendant (parent child : KeyBindingContextPredicate)
  | not (predicate : KeyBindingContextPredicate)
  | and (left right : KeyBindingContextPredicate)
  | or (left right : KeyBindingContextPredicate)
deriving DecidableEq, Repr

namespace KeyBindingContextPredicate

def evalInner (self : KeyBindingContextPredicate) (contexts allContexts : List KeyContext) :
    Bool :=
  match contexts.getLast? with
  | none => false
  | some context =>
      match self with
      | identifier name => context.contains name
      | equal left right => ((context.get left).map fun value => decide (value = right)).getD false
      | notEqual left right =>
          ((context.get left).map fun value => decide (value ≠ right)).getD true
      | not predicate =>
          (List.range allContexts.length).all fun index =>
            !predicate.evalInner (allContexts.take (index + 1)) allContexts
      | descendant parent child =>
          -- the first match of the parent decides where the child starts
          match (List.range (contexts.length - 1)).find? fun index =>
            parent.evalInner (contexts.take (index + 1)) allContexts with
          | some index =>
              child.evalInner (contexts.drop (index + 1)) (contexts.drop (index + 1))
          | none => false
      | and left right =>
          left.evalInner contexts allContexts && right.evalInner contexts allContexts
      | or left right =>
          left.evalInner contexts allContexts || right.evalInner contexts allContexts

def eval (self : KeyBindingContextPredicate) (contexts : List KeyContext) : Bool :=
  self.evalInner contexts contexts

/-- The deepest of the first `depth` slices that matches. -/
def depthBelow (self : KeyBindingContextPredicate) (contexts : List KeyContext) :
    Nat → Option Nat
  | 0 => if self.evalInner (contexts.take 0) contexts then some 0 else none
  | depth + 1 =>
      if self.evalInner (contexts.take (depth + 1)) contexts then some (depth + 1)
      else depthBelow self contexts depth

def depthOf (self : KeyBindingContextPredicate) (contexts : List KeyContext) : Option Nat :=
  self.depthBelow contexts contexts.length

/-- `is_superset` for a predicate that is no disjunction: it is searched among
the conjuncts of `other` and below its `>`. -/
def isSupersetWithin (self : KeyBindingContextPredicate) : KeyBindingContextPredicate → Bool
  | descendant parent child => self = descendant parent child || self.isSupersetWithin child
  | and left right =>
      self = and left right || (self.isSupersetWithin left || self.isSupersetWithin right)
  | other => self = other

/-- Whether `self` matches everything `other` matches, as far as the syntax
shows. -/
def isSuperset : KeyBindingContextPredicate → KeyBindingContextPredicate → Bool
  | or left right, other =>
      or left right = other || (left.isSuperset other || right.isSuperset other)
  | self, other => self.isSupersetWithin other

/-! ## Evaluation -/

example : (not (.identifier "editor")).evalInner [] [] = false := by
  simp [evalInner]

theorem evalInner_nil (self : KeyBindingContextPredicate) (allContexts : List KeyContext) :
    self.evalInner [] allContexts = false := by
  cases self <;> rfl

theorem ne_nil_of_evalInner {self : KeyBindingContextPredicate}
    {contexts allContexts : List KeyContext}
    (holds : self.evalInner contexts allContexts = true) : contexts ≠ [] := by
  rintro rfl
  rw [evalInner_nil] at holds
  exact Bool.false_ne_true holds

theorem evalInner_and (left right : KeyBindingContextPredicate)
    (contexts allContexts : List KeyContext) :
    (and left right).evalInner contexts allContexts = true ↔
      left.evalInner contexts allContexts = true ∧
        right.evalInner contexts allContexts = true := by
  cases last : contexts.getLast? with
  | none =>
      rw [List.getLast?_eq_none_iff.mp last]
      simp [evalInner_nil]
  | some context => rw [evalInner, last, Bool.and_eq_true]

theorem evalInner_or (left right : KeyBindingContextPredicate)
    (contexts allContexts : List KeyContext) :
    (or left right).evalInner contexts allContexts = true ↔
      left.evalInner contexts allContexts = true ∨
        right.evalInner contexts allContexts = true := by
  cases last : contexts.getLast? with
  | none =>
      rw [List.getLast?_eq_none_iff.mp last]
      simp [evalInner_nil]
  | some context => rw [evalInner, last, Bool.or_eq_true]

theorem evalInner_not (predicate : KeyBindingContextPredicate)
    (contexts allContexts : List KeyContext) :
    (not predicate).evalInner contexts allContexts = true ↔
      contexts ≠ [] ∧ ∀ index < allContexts.length,
        predicate.evalInner (allContexts.take (index + 1)) allContexts = false := by
  cases last : contexts.getLast? with
  | none =>
      rw [List.getLast?_eq_none_iff.mp last]
      simp [evalInner_nil]
  | some context =>
      have nonempty : contexts ≠ [] := by
        rintro rfl
        simp at last
      rw [evalInner, last]
      simp [nonempty]

theorem evalInner_descendant (parent child : KeyBindingContextPredicate)
    (contexts allContexts : List KeyContext) :
    (descendant parent child).evalInner contexts allContexts = true ↔
      ∃ index, index < contexts.length - 1 ∧
        parent.evalInner (contexts.take (index + 1)) allContexts = true ∧
        (∀ earlier < index,
          parent.evalInner (contexts.take (earlier + 1)) allContexts = false) ∧
        child.evalInner (contexts.drop (index + 1)) (contexts.drop (index + 1)) = true := by
  cases last : contexts.getLast? with
  | none =>
      rw [List.getLast?_eq_none_iff.mp last]
      simp [evalInner_nil]
  | some context =>
      rw [evalInner, last]
      simp only
      cases found : (List.range (contexts.length - 1)).find? fun index =>
          parent.evalInner (contexts.take (index + 1)) allContexts with
      | none =>
          simp only [List.find?_eq_none, List.mem_range] at found
          constructor
          · simp
          · rintro ⟨index, inRange, holds, -⟩
            exact absurd holds (found index inRange)
      | some index =>
          rw [List.find?_range_eq_some] at found
          obtain ⟨holds, inRange, first⟩ := found
          constructor
          · intro below
            refine ⟨index, List.mem_range.mp inRange, holds, ?_, below⟩
            simpa using first
          · rintro ⟨other, otherRange, otherHolds, otherFirst, below⟩
            rcases Nat.lt_trichotomy other index with less | rfl | greater
            · exact absurd otherHolds (by simpa using first other less)
            · exact below
            · exact absurd holds (by simp [otherFirst index greater])

/-! ## The deepest match -/

theorem depthBelow_eq_some {self : KeyBindingContextPredicate} {contexts : List KeyContext}
    {bound depth : Nat} (found : self.depthBelow contexts bound = some depth) :
    depth ≤ bound ∧ self.evalInner (contexts.take depth) contexts = true := by
  induction bound with
  | zero =>
      simp [depthBelow, evalInner_nil] at found
  | succ bound ih =>
      simp only [depthBelow] at found
      split at found
      · obtain rfl := Option.some.inj found
        exact ⟨le_rfl, ‹_›⟩
      · exact ⟨(ih found).1.trans (Nat.le_succ bound), (ih found).2⟩

theorem le_depthBelow {self : KeyBindingContextPredicate} {contexts : List KeyContext}
    {bound depth : Nat} (below : depth ≤ bound)
    (holds : self.evalInner (contexts.take depth) contexts = true) :
    ∃ deepest, self.depthBelow contexts bound = some deepest ∧ depth ≤ deepest := by
  induction bound with
  | zero =>
      obtain rfl := Nat.le_zero.mp below
      exact ⟨0, if_pos holds, le_rfl⟩
  | succ bound ih =>
      simp only [depthBelow]
      split
      · exact ⟨bound + 1, rfl, below⟩
      · rename_i misses
        rcases Nat.le_succ_iff.mp below with lower | rfl
        · exact ih lower
        · exact absurd holds misses

theorem depthOf_eq_some {self : KeyBindingContextPredicate} {contexts : List KeyContext}
    {depth : Nat} (found : self.depthOf contexts = some depth) :
    depth ≤ contexts.length ∧ self.evalInner (contexts.take depth) contexts = true :=
  depthBelow_eq_some found

end KeyBindingContextPredicate

end Gpui
