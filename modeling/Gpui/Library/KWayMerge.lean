import Mathlib

/-!
# Merging sources run by run

Finitely or infinitely many sorted sources are merged by repeatedly cutting a
nonempty run off the front of one source, chosen so that nothing in the run
exceeds what any other source still holds.  The cut may stop anywhere: a run
need not be as long as the order would allow.

`Merges` is the relation between the sources and the runs of a merge that ends
with every source empty.
-/

namespace Gpui.Library

universe u v w

variable {ι : Type u} {α : Type v} {κ : Type w} [DecidableEq ι] [LinearOrder κ]

/-- `run` is a front part of source `index` that may be emitted next. -/
structure Emits (key : α → κ) (sources : ι → List α) (index : ι) (run rest : List α) :
    Prop where
  front : sources index = run ++ rest
  nonempty : run ≠ []
  least : ∀ item ∈ run, ∀ other, other ≠ index → ∀ waiting ∈ sources other,
    key item ≤ key waiting

/-- A complete merge: the emitted runs, each with the index of its source. -/
inductive Merges (key : α → κ) : (ι → List α) → List (ι × List α) → Prop where
  | done {sources : ι → List α} (empty : ∀ index, sources index = []) : Merges key sources []
  | emit {sources : ι → List α} {index : ι} {run rest : List α} {runs : List (ι × List α)}
      (emits : Emits key sources index run rest)
      (remaining : Merges key (Function.update sources index rest) runs) :
      Merges key sources ((index, run) :: runs)

/-- The runs of one source, in order. -/
def runsOf (index : ι) (runs : List (ι × List α)) : List α :=
  (runs.filter fun run => run.1 = index).flatMap Prod.snd

/-- The whole output of a merge. -/
def merged (runs : List (ι × List α)) : List α :=
  runs.flatMap Prod.snd

/-- The runs of a source put together are the source. -/
theorem Merges.runsOf_eq {key : α → κ} {sources : ι → List α} {runs : List (ι × List α)}
    (merges : Merges key sources runs) (index : ι) : runsOf index runs = sources index := by
  induction merges with
  | done empty => simp [runsOf, empty index]
  | @emit sources emitted run rest runs emits _ ih =>
      by_cases same : emitted = index
      · subst same
        rw [Function.update_self] at ih
        rw [emits.front, ← ih]
        simp [runsOf]
      · rw [Function.update_of_ne (Ne.symm same)] at ih
        rw [← ih]
        simp [runsOf, same]

theorem Merges.mem_sources {key : α → κ} {sources : ι → List α} {runs : List (ι × List α)}
    (merges : Merges key sources runs) {item : α} (member : item ∈ merged runs) :
    ∃ index, item ∈ sources index := by
  obtain ⟨run, runMem, itemMem⟩ := List.mem_flatMap.mp member
  refine ⟨run.1, ?_⟩
  rw [← merges.runsOf_eq run.1]
  exact List.mem_flatMap.mpr ⟨run, by simp [runMem], itemMem⟩

/-- The output of a merge of sorted sources is sorted. -/
theorem Merges.sorted {key : α → κ} {sources : ι → List α} {runs : List (ι × List α)}
    (merges : Merges key sources runs)
    (sorted : ∀ index, (sources index).Pairwise fun first second => key first ≤ key second) :
    (merged runs).Pairwise fun first second => key first ≤ key second := by
  induction merges with
  | done _ => exact List.Pairwise.nil
  | @emit sources emitted run rest runs emits remaining ih =>
      have sourceSorted := sorted emitted
      rw [emits.front, List.pairwise_append] at sourceSorted
      obtain ⟨runSorted, restSorted, across⟩ := sourceSorted
      have remainingSorted : ∀ index, (Function.update sources emitted rest index).Pairwise
          fun first second => key first ≤ key second := by
        intro index
        by_cases same : index = emitted
        · subst same
          rwa [Function.update_self]
        · rw [Function.update_of_ne same]
          exact sorted index
      rw [merged, List.flatMap_cons]
      refine List.pairwise_append.mpr ⟨runSorted, ih remainingSorted, ?_⟩
      intro item itemMem later laterMem
      obtain ⟨index, held⟩ := remaining.mem_sources laterMem
      by_cases same : index = emitted
      · subst same
        rw [Function.update_self] at held
        exact across item itemMem later held
      · rw [Function.update_of_ne same] at held
        exact emits.least item itemMem index same later held

end Gpui.Library
