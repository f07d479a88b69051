import Gpui.Library.Sweep
import Gpui.Style.Highlight

/-!
# Combining highlights

Ranges of a text are highlighted, one over another.  They are combined by sweeping over
their ends: the set of the highlights that are active is changed at each end, and between
two ends their styles are blended in the order in which the set iterates over them.

The set hashes, so its order may be any; and ends at one place are sorted in any order.
-/

namespace Gpui

open Library

/-- `HashSet<usize>`, with the order in which it iterates. -/
structure HashSet (S : Type) where
  empty : S
  insert : S → Nat → S
  remove : S → Nat → S
  iter : S → List Nat
  iter_empty : iter empty = []
  mem_insert : ∀ set id other, other ∈ iter (insert set id) ↔ other = id ∨ other ∈ iter set
  mem_remove : ∀ set id other, other ∈ iter (remove set id) ↔ other ≠ id ∧ other ∈ iter set

/-- An end of a highlighted range. -/
structure Endpoint where
  position : Nat
  highlightId : Nat
  isStart : Bool
deriving DecidableEq, Repr

/-- `sort_unstable_by_key`, for the positions of endpoints. -/
structure UnstableSort where
  sort : List Endpoint → List Endpoint
  perm : ∀ endpoints, (sort endpoints).Perm endpoints
  sorted : ∀ endpoints,
    (sort endpoints).Pairwise fun first second => first.position ≤ second.position

variable {K S : Type}

/-- The ranges that are not empty, with their styles. -/
def nonemptyHighlights (highlights : List ((Nat × Nat) × HighlightStyle K)) :
    List ((Nat × Nat) × HighlightStyle K) :=
  highlights.filter fun highlight => highlight.1.1 < highlight.1.2

/-- The ends of the ranges.  Highlights are numbered in their order. -/
def endpointsFrom (highlightId : Nat) :
    List ((Nat × Nat) × HighlightStyle K) → List Endpoint
  | [] => []
  | (range, _) :: highlights =>
      ⟨range.1, highlightId, true⟩ :: ⟨range.2, highlightId, false⟩ ::
        endpointsFrom (highlightId + 1) highlights

namespace HashSet

variable (self : HashSet S)

/-- An end of a range starts or ends its highlight. -/
def update (active : S) (endpoint : Endpoint) : S :=
  if endpoint.isStart then self.insert active endpoint.highlightId
  else self.remove active endpoint.highlightId

variable [Field K] [LinearOrder K] [FloorRing K]

/-- Blend the styles of the active highlights. -/
def currentStyle (highlights : List ((Nat × Nat) × HighlightStyle K)) (active : S) :
    HighlightStyle K :=
  (self.iter active).foldl
    (fun acc highlightId =>
      match highlights[highlightId]? with
      | some highlight => acc.highlight highlight.2
      | none => acc)
    .default

/-- The items of the iterator.  The endpoint at which an item ends is looked at once more,
with the index at its position, and then it is passed. -/
def combinedFrom (highlights : List ((Nat × Nat) × HighlightStyle K)) :
    Nat → S → List Endpoint → List ((Nat × Nat) × HighlightStyle K)
  | _, _, [] => []
  | ix, active, endpoint :: endpoints =>
      let rest := combinedFrom highlights endpoint.position (self.update active endpoint) endpoints
      if endpoint.position > ix ∧ self.iter active ≠ [] then
        ((ix, endpoint.position), self.currentStyle highlights active) :: rest
      else rest

/-- Combine and merge the highlights and ranges in the two iterators. -/
def combineHighlights (sort : UnstableSort) (a b : List ((Nat × Nat) × HighlightStyle K)) :
    List ((Nat × Nat) × HighlightStyle K) :=
  let highlights := nonemptyHighlights (a ++ b)
  self.combinedFrom highlights 0 self.empty (sort.sort (endpointsFrom 0 highlights))

end HashSet

/-! ## The highlights of a byte -/

/-- The styles of the highlights that cover a byte, in their order. -/
def covering (highlights : List ((Nat × Nat) × HighlightStyle K)) (i : Nat) :
    List (HighlightStyle K) :=
  (highlights.filter fun highlight => highlight.1.1 ≤ i ∧ i < highlight.1.2).map Prod.snd

theorem covering_ne_nil_iff {highlights : List ((Nat × Nat) × HighlightStyle K)} {i : Nat} :
    covering highlights i ≠ [] ↔
      ∃ highlight ∈ highlights, highlight.1.1 ≤ i ∧ i < highlight.1.2 := by
  rw [covering, Ne, List.map_eq_nil_iff, List.filter_eq_nil_iff]
  simp only [decide_eq_true_eq, not_forall, not_not, exists_prop]

/-- Empty ranges cover nothing. -/
theorem covering_nonemptyHighlights (highlights : List ((Nat × Nat) × HighlightStyle K))
    (i : Nat) : covering (nonemptyHighlights highlights) i = covering highlights i := by
  rw [covering, covering, nonemptyHighlights, List.filter_filter]
  apply congrArg (List.map Prod.snd)
  apply List.filter_congr
  intro highlight member
  rw [← Bool.decide_and, decide_eq_decide]
  constructor
  · exact fun both => both.1
  · intro inside
    exact ⟨inside, inside.1.trans_lt inside.2⟩

/-- The ends of the ranges, each with its highlight. -/
theorem mem_endpointsFrom {first : Nat} {highlights : List ((Nat × Nat) × HighlightStyle K)}
    {endpoint : Endpoint} :
    endpoint ∈ endpointsFrom first highlights ↔
      ∃ index highlight, highlights[index]? = some highlight ∧
        endpoint = ⟨if endpoint.isStart then highlight.1.1 else highlight.1.2, first + index,
          endpoint.isStart⟩ := by
  induction highlights generalizing first with
  | nil => simp [endpointsFrom]
  | cons head highlights ih =>
      rcases head with ⟨range, style⟩
      rw [endpointsFrom, List.mem_cons, List.mem_cons, ih]
      constructor
      · rintro (rfl | rfl | ⟨index, highlight, found, same⟩)
        · exact ⟨0, _, rfl, rfl⟩
        · exact ⟨0, _, rfl, rfl⟩
        · refine ⟨index + 1, highlight, found, ?_⟩
          rw [Nat.add_right_comm] at same
          exact same
      · rintro ⟨index, highlight, found, same⟩
        cases index with
        | zero =>
            cases found
            rcases endpoint with ⟨position, highlightId, isStart⟩
            cases isStart
            · exact Or.inr (Or.inl same)
            · exact Or.inl same
        | succ index =>
            refine Or.inr (Or.inr ⟨index, highlight, found, ?_⟩)
            rw [Nat.add_right_comm]
            exact same

end Gpui
