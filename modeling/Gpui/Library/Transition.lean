import Mathlib

/-!
# Runs of a labelled system

A system steps along labels.  A run collects the labels it took; an invariant
of runs may speak of the labels so far as well as of the state.
-/

namespace Gpui.Library

universe u v

variable {σ : Type u} {ε : Type v}

/-- A run from the first state to the second, all of whose steps are allowed. -/
inductive Run (step : σ → ε → Option σ) (allowed : σ → ε → Prop) : σ → List ε → σ → Prop where
  | nil {state : σ} : Run step allowed state [] state
  | snoc {first state last : σ} {events : List ε} {event : ε}
      (run : Run step allowed first events state) (may : allowed state event)
      (steps : step state event = some last) : Run step allowed first (events ++ [event]) last

namespace Run

variable {step : σ → ε → Option σ} {allowed : σ → ε → Prop}

/-- What holds at the start and survives every step holds at the end. -/
theorem invariant {first last : σ} {events : List ε} (run : Run step allowed first events last)
    (invariant : List ε → σ → Prop) (start : invariant [] first)
    (preserved : ∀ {events state event next}, invariant events state → allowed state event →
      step state event = some next → invariant (events ++ [event]) next) :
    invariant events last := by
  induction run with
  | nil => exact start
  | snoc _ may steps ih => exact preserved ih may steps

theorem mono {weaker : σ → ε → Prop} (implies : ∀ state event, allowed state event →
    weaker state event) {first last : σ} {events : List ε}
    (run : Run step allowed first events last) : Run step weaker first events last := by
  induction run with
  | nil => exact .nil
  | snoc _ may steps ih => exact ih.snoc (implies _ _ may) steps

theorem append {first middle last : σ} {events more : List ε}
    (front : Run step allowed first events middle) (back : Run step allowed middle more last) :
    Run step allowed first (events ++ more) last := by
  induction back with
  | nil => simpa using front
  | snoc _ may steps ih =>
      rw [← List.append_assoc]
      exact ih.snoc may steps

theorem cons {first middle last : σ} {event : ε} {events : List ε} (may : allowed first event)
    (steps : step first event = some middle) (run : Run step allowed middle events last) :
    Run step allowed first (event :: events) last :=
  (nil.snoc may steps).append run

/-- Labels that are allowed in every state make a run where the step function folds. -/
theorem of_foldlM_of_forall {first last : σ} {events : List ε}
    (may : ∀ state, ∀ event ∈ events, allowed state event)
    (folded : events.foldlM step first = some last) : Run step allowed first events last := by
  induction events using List.reverseRecOn generalizing last with
  | nil =>
      obtain rfl := Option.some.inj folded
      exact .nil
  | append_singleton events event ih =>
      rw [List.foldlM_append] at folded
      obtain ⟨middle, front, back⟩ := Option.bind_eq_some_iff.mp folded
      have before := ih (fun state other member => may state other (by simp [member])) front
      exact before.snoc (may middle event (by simp)) (by simpa using back)

/-- An unrestricted run is a fold of the step function. -/
theorem of_foldlM {first last : σ} {events : List ε}
    (folded : events.foldlM step first = some last) :
    Run step (fun _ _ => True) first events last :=
  of_foldlM_of_forall (fun _ _ _ => trivial) folded

/-- A label of a run divides it. -/
theorem split {first last : σ} {front back : List ε} {event : ε}
    (run : Run step allowed first (front ++ event :: back) last) :
    ∃ middle next, Run step allowed first front middle ∧ allowed middle event ∧
      step middle event = some next ∧ Run step allowed next back last := by
  generalize together : front ++ event :: back = events at run
  induction run generalizing back with
  | nil => simp at together
  | @snoc state last events lastEvent run may steps ih =>
      rcases List.eq_nil_or_concat back with rfl | ⟨rest, _, rfl⟩
      · rcases List.append_inj' together rfl with ⟨rfl, ⟨⟩⟩
        exact ⟨state, last, run, may, steps, .nil⟩
      · rw [List.concat_eq_append, ← List.cons_append, ← List.append_assoc] at together
        rcases List.append_inj' together rfl with ⟨rfl, ⟨⟩⟩
        rcases ih rfl with ⟨middle, next, before, mayStep, stepped, after⟩
        rw [List.concat_eq_append]
        exact ⟨middle, next, before, mayStep, stepped, after.snoc may steps⟩

/-- The labels of a run determine where it goes. -/
theorem unique {first last other : σ} {events : List ε} (run : Run step allowed first events last)
    (otherRun : Run step allowed first events other) : last = other := by
  induction run generalizing other with
  | nil =>
      generalize empty : ([] : List ε) = events at otherRun
      cases otherRun with
      | nil => rfl
      | snoc _ _ _ => simp at empty
  | @snoc state last events event run _ steps ih =>
      generalize together : events ++ [event] = all at otherRun
      cases otherRun with
      | nil => simp at together
      | snoc before _ otherSteps =>
          rcases List.append_inj' together rfl with ⟨rfl, ⟨⟩⟩
          rw [ih before, otherSteps] at steps
          exact (Option.some.inj steps).symm

end Run

/-! ## Runs that end -/

/-- A number that never grows, and where all stretches end in which it stays, lets runs end. -/
theorem acc_of_rank {steps : σ → σ → Prop} (reached : σ → Prop) (rank : σ → Nat)
    (preserved : ∀ state next, reached state → steps next state → reached next)
    (falls : ∀ state next, reached state → steps next state → rank next ≤ rank state)
    (settles : ∀ state, reached state →
      Acc (fun next state => reached state ∧ steps next state ∧ rank next = rank state) state)
    {state : σ} (here : reached state) : Acc steps state := by
  induction isRank : rank state using Nat.strong_induction_on generalizing state with
  | _ n lower =>
      have stays := settles state here
      induction stays with
      | intro state _ ih =>
          constructor
          intro next stepped
          have there := preserved state next here stepped
          rcases (falls state next here stepped).lt_or_eq with less | same
          · exact lower _ (isRank ▸ less) there rfl
          · exact ih next ⟨here, stepped, same⟩ there (same.trans isRank)

/-! ## Positions in a run -/

/-- A place in a longer run is its end or a place in the run before. -/
theorem snoc_eq_append_cons {events front back : List ε} {event other : ε}
    (split : events ++ [event] = front ++ other :: back) :
    back = [] ∧ front = events ∧ other = event ∨
      ∃ rest, back = rest ++ [event] ∧ events = front ++ other :: rest := by
  rcases List.eq_nil_or_concat back with rfl | ⟨rest, last, rfl⟩
  · rcases List.append_inj' split rfl with ⟨rfl, same⟩
    exact Or.inl ⟨rfl, rfl, (List.singleton_inj.mp same).symm⟩
  · rw [List.concat_eq_append, ← List.cons_append, ← List.append_assoc] at split
    rcases List.append_inj' split rfl with ⟨rfl, same⟩
    rw [List.singleton_inj.mp same]
    exact Or.inr ⟨rest, List.concat_eq_append, rfl⟩

/-- Some occurrence of the second label has the first label before it. -/
def Before (first second : ε) (events : List ε) : Prop :=
  ∃ front back, events = front ++ second :: back ∧ first ∈ front

theorem Before.mem {first second : ε} {events : List ε} (before : Before first second events) :
    first ∈ events ∧ second ∈ events := by
  rcases before with ⟨front, back, rfl, member⟩
  exact ⟨List.mem_append_left _ member, List.mem_append_right _ List.mem_cons_self⟩

theorem Before.append {first second : ε} {events : List ε} (before : Before first second events)
    (more : List ε) : Before first second (events ++ more) := by
  rcases before with ⟨front, back, rfl, member⟩
  exact ⟨front, back ++ more, by simp, member⟩

theorem mem_snoc {events : List ε} {event other : ε} :
    other ∈ events ++ [event] ↔ other ∈ events ∨ event = other := by
  rw [List.mem_append, List.mem_singleton, eq_comm (a := event)]

theorem before_snoc_iff {first second : ε} {events : List ε} {event : ε} :
    Before first second (events ++ [event]) ↔
      Before first second events ∨ event = second ∧ first ∈ events := by
  constructor
  · rintro ⟨front, back, split, member⟩
    rcases snoc_eq_append_cons split with ⟨_, rfl, rfl⟩ | ⟨rest, _, rfl⟩
    · exact Or.inr ⟨rfl, member⟩
    · exact Or.inl ⟨front, rest, rfl, member⟩
  · rintro (⟨front, back, rfl, member⟩ | ⟨rfl, member⟩)
    · exact ⟨front, back ++ [event], by simp, member⟩
    · exact ⟨events, [], rfl, member⟩

end Gpui.Library
