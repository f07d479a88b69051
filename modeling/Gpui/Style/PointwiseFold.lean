import Gpui.Style.CombineHighlights

/-!
# The pointwise fold of highlights

At every byte, combined highlights should be the fold of the styles that cover the byte, in
the order in which they were given.  The set of active highlights has an order of its own,
so they are the fold exactly where that order makes no difference.
-/

namespace Gpui

open Library

variable {K S : Type}

/-! ## The active highlights -/

/-- The endpoint is an end of a highlight that is not empty. -/
def EndOf (highlights : List ((Nat × Nat) × HighlightStyle K)) (endpoint : Endpoint) : Prop :=
  ∃ highlight, highlights[endpoint.highlightId]? = some highlight ∧
    highlight.1.1 < highlight.1.2 ∧
    endpoint.position = if endpoint.isStart then highlight.1.1 else highlight.1.2

theorem mem_endpoints_iff {highlights : List ((Nat × Nat) × HighlightStyle K)}
    (nonempty : ∀ highlight ∈ highlights, highlight.1.1 < highlight.1.2) {endpoint : Endpoint} :
    endpoint ∈ endpointsFrom 0 highlights ↔ EndOf highlights endpoint := by
  rw [mem_endpointsFrom]
  constructor
  · rintro ⟨index, highlight, found, same⟩
    rw [Nat.zero_add] at same
    rw [EndOf, same]
    exact ⟨highlight, found, nonempty highlight (List.mem_of_getElem? found), rfl⟩
  · rintro ⟨highlight, found, -, position⟩
    refine ⟨endpoint.highlightId, highlight, found, ?_⟩
    rw [Nat.zero_add, ← position]

/-- The start or the end of a highlight is among endpoints. -/
def HasEnd (endpoints : List Endpoint) (id : Nat) (isStart : Bool) : Prop :=
  ∃ endpoint ∈ endpoints, endpoint.highlightId = id ∧ endpoint.isStart = isStart

theorem hasEnd_concat {endpoints : List Endpoint} {last : Endpoint} {id : Nat} {isStart : Bool} :
    HasEnd (endpoints ++ [last]) id isStart ↔
      HasEnd endpoints id isStart ∨ last.highlightId = id ∧ last.isStart = isStart := by
  constructor
  · rintro ⟨endpoint, member, there⟩
    rcases List.mem_append.mp member with before | isLast
    · exact Or.inl ⟨endpoint, before, there⟩
    · rw [List.mem_singleton.mp isLast] at there
      exact Or.inr there
  · rintro (⟨endpoint, before, there⟩ | there)
    · exact ⟨endpoint, List.mem_append_left _ before, there⟩
    · exact ⟨last, List.mem_append_right _ (List.mem_singleton_self last), there⟩

namespace HashSet

variable {self : HashSet S}

theorem mem_update {active : S} {endpoint : Endpoint} {id : Nat} :
    id ∈ self.iter (self.update active endpoint) ↔
      if endpoint.isStart then id = endpoint.highlightId ∨ id ∈ self.iter active
      else id ≠ endpoint.highlightId ∧ id ∈ self.iter active := by
  rw [update]
  by_cases isStart : endpoint.isStart = true
  · rw [if_pos isStart, if_pos isStart, self.mem_insert]
  · rw [if_neg isStart, if_neg isStart, self.mem_remove]

/-- A highlight is active behind its start and in front of its end. -/
theorem mem_active {highlights : List ((Nat × Nat) × HighlightStyle K)}
    {endpoints : List Endpoint} (ends : ∀ endpoint ∈ endpoints, EndOf highlights endpoint)
    (sorted : endpoints.Pairwise fun first second => first.position ≤ second.position)
    {id : Nat} :
    id ∈ self.iter (endpoints.foldl self.update self.empty) ↔
      HasEnd endpoints id true ∧ ¬ HasEnd endpoints id false := by
  induction endpoints using List.reverseRecOn with
  | nil => simp [self.iter_empty, HasEnd]
  | append_singleton endpoints last ih =>
      have before := ih (fun endpoint member => ends endpoint (List.mem_append_left _ member))
        (List.pairwise_append.mp sorted).1
      rw [List.foldl_append, List.foldl_cons, List.foldl_nil, mem_update, before, hasEnd_concat,
        hasEnd_concat]
      cases isStart : last.isStart with
      | true =>
          rw [if_pos rfl]
          have notEnded : ¬ HasEnd endpoints last.highlightId false := by
            -- The end would be in front of its start.
            rintro ⟨other, member, same, isEnd⟩
            rcases ends last (List.mem_append_right _ (List.mem_singleton_self last)) with
              ⟨highlight, found, nonempty, position⟩
            rcases ends other (List.mem_append_left _ member) with
              ⟨highlight', found', -, position'⟩
            rw [same] at found'
            rcases Option.some.inj (found.symm.trans found') with rfl
            rw [isStart, if_pos rfl] at position
            rw [isEnd, if_neg Bool.false_ne_true] at position'
            have order := (List.pairwise_append.mp sorted).2.2 other member last
              (List.mem_singleton_self last)
            omega
          constructor
          · rintro (rfl | ⟨started, still⟩)
            · refine ⟨Or.inr ⟨rfl, rfl⟩, ?_⟩
              rintro (ended | ⟨-, absurd⟩)
              · exact notEnded ended
              · cases absurd
            · refine ⟨Or.inl started, ?_⟩
              rintro (ended | ⟨-, absurd⟩)
              · exact still ended
              · cases absurd
          · rintro ⟨started | ⟨same, -⟩, still⟩
            · exact Or.inr ⟨started, fun ended => still (Or.inl ended)⟩
            · exact Or.inl same.symm
      | false =>
          rw [if_neg Bool.false_ne_true]
          constructor
          · rintro ⟨other, started, still⟩
            refine ⟨Or.inl started, ?_⟩
            rintro (ended | ⟨same, -⟩)
            · exact still ended
            · exact other same.symm
          · rintro ⟨started | ⟨-, absurd⟩, still⟩
            · exact ⟨fun same => still (Or.inr ⟨same.symm, rfl⟩), started,
                fun ended => still (Or.inl ended)⟩
            · cases absurd

variable (self) in
/-- The set of active highlights at a byte. -/
def activeAt (sort : UnstableSort) (highlights : List ((Nat × Nat) × HighlightStyle K))
    (i : Nat) : S :=
  ((sort.sort (endpointsFrom 0 highlights)).filter fun endpoint =>
    endpoint.position ≤ i).foldl self.update self.empty

/-- The active highlights at a byte are the ones that cover it. -/
theorem mem_activeAt (sort : UnstableSort) {highlights : List ((Nat × Nat) × HighlightStyle K)}
    (nonempty : ∀ highlight ∈ highlights, highlight.1.1 < highlight.1.2) {i id : Nat} :
    id ∈ self.iter (self.activeAt sort highlights i) ↔
      ∃ highlight, highlights[id]? = some highlight ∧ highlight.1.1 ≤ i ∧ i < highlight.1.2 := by
  have isEnd : ∀ endpoint, endpoint ∈ sort.sort (endpointsFrom 0 highlights) ↔
      EndOf highlights endpoint := by
    intro endpoint
    rw [(sort.perm _).mem_iff, mem_endpoints_iff nonempty]
  have member : ∀ isStart : Bool,
      HasEnd ((sort.sort (endpointsFrom 0 highlights)).filter fun endpoint =>
        endpoint.position ≤ i) id isStart ↔
      ∃ highlight, highlights[id]? = some highlight ∧
        (if isStart then highlight.1.1 else highlight.1.2) ≤ i := by
    intro isStart
    constructor
    · rintro ⟨endpoint, among, rfl, rfl⟩
      rcases List.mem_filter.mp among with ⟨inEndpoints, reached⟩
      rcases (isEnd endpoint).mp inEndpoints with ⟨highlight, found, -, position⟩
      rw [decide_eq_true_eq, position] at reached
      exact ⟨highlight, found, reached⟩
    · rintro ⟨highlight, found, reached⟩
      refine ⟨⟨if isStart then highlight.1.1 else highlight.1.2, id, isStart⟩,
        List.mem_filter.mpr ⟨?_, decide_eq_true reached⟩, rfl, rfl⟩
      rw [isEnd]
      exact ⟨highlight, found, nonempty highlight (List.mem_of_getElem? found), rfl⟩
  have ends : ∀ endpoint ∈ (sort.sort (endpointsFrom 0 highlights)).filter
      (fun endpoint => endpoint.position ≤ i), EndOf highlights endpoint :=
    fun endpoint among => (isEnd endpoint).mp (List.mem_filter.mp among).1
  rw [activeAt, mem_active ends ((sort.sorted _).filter _), member true, member false]
  constructor
  · rintro ⟨⟨highlight, found, started⟩, notEnded⟩
    refine ⟨highlight, found, started, ?_⟩
    by_contra ended
    exact notEnded ⟨highlight, found, not_lt.mp ended⟩
  · rintro ⟨highlight, found, started, notEnded⟩
    refine ⟨⟨highlight, found, started⟩, ?_⟩
    rintro ⟨other, found', ended⟩
    rcases Option.some.inj (found.symm.trans found') with rfl
    exact absurd ended (not_le.mpr notEnded)

/-- Something is active where something covers the byte. -/
theorem iter_activeAt_ne_nil_iff (sort : UnstableSort)
    {highlights : List ((Nat × Nat) × HighlightStyle K)}
    (nonempty : ∀ highlight ∈ highlights, highlight.1.1 < highlight.1.2) {i : Nat} :
    self.iter (self.activeAt sort highlights i) ≠ [] ↔ covering highlights i ≠ [] := by
  rw [covering_ne_nil_iff]
  constructor
  · intro active
    rcases List.exists_mem_of_ne_nil _ active with ⟨id, member⟩
    rcases (mem_activeAt sort nonempty).mp member with ⟨highlight, found, covers⟩
    exact ⟨highlight, List.mem_of_getElem? found, covers⟩
  · rintro ⟨highlight, among, covers⟩
    rcases List.mem_iff_getElem?.mp among with ⟨id, found⟩
    exact List.ne_nil_of_mem ((mem_activeAt sort nonempty).mpr ⟨highlight, found, covers⟩)

/-! ## The ranges -/

variable [Field K] [LinearOrder K] [FloorRing K]

variable (self) in
/-- The styles of the active highlights at a byte, in the order of the set. -/
def activeStyles (sort : UnstableSort) (highlights : List ((Nat × Nat) × HighlightStyle K))
    (i : Nat) : List (HighlightStyle K) :=
  (self.iter (self.activeAt sort highlights i)).filterMap fun id =>
    highlights[id]?.map Prod.snd

theorem currentStyle_activeAt (sort : UnstableSort)
    (highlights : List ((Nat × Nat) × HighlightStyle K)) (i : Nat) :
    self.currentStyle highlights (self.activeAt sort highlights i) =
      HighlightStyle.foldHighlights (self.activeStyles sort highlights i) := by
  rw [currentStyle, activeStyles, HighlightStyle.foldHighlights, List.foldl_filterMap]
  congr 1
  funext acc id
  cases highlights[id]? <;> rfl

/-- The items are the gaps in which something is active. -/
theorem combinedFrom_eq_filterMap (highlights : List ((Nat × Nat) × HighlightStyle K))
    (ix : Nat) (active : S) (endpoints : List Endpoint) :
    self.combinedFrom highlights ix active endpoints =
      (sweep Endpoint.position self.update ix active endpoints).filterMap fun gap =>
        if self.iter gap.state ≠ [] then
          some ((gap.start, gap.stop), self.currentStyle highlights gap.state)
        else none := by
  induction endpoints generalizing ix active with
  | nil => rfl
  | cons endpoint endpoints ih =>
      rw [combinedFrom, sweep, ih]
      by_cases crossed : ix < endpoint.position
      · rw [if_pos crossed, List.filterMap_cons]
        by_cases activates : self.iter active ≠ []
        · rw [if_pos ⟨crossed, activates⟩, if_pos activates]
        · rw [if_neg fun both => activates both.2, if_neg activates]
      · rw [if_neg fun both => crossed both.1, if_neg crossed]

variable {sort : UnstableSort} {a b : List ((Nat × Nat) × HighlightStyle K)}

omit [Field K] [LinearOrder K] [FloorRing K] in
theorem lt_of_mem_nonemptyHighlights {highlights : List ((Nat × Nat) × HighlightStyle K)} :
    ∀ highlight ∈ nonemptyHighlights highlights, highlight.1.1 < highlight.1.2 :=
  fun _ member => of_decide_eq_true (List.mem_filter.mp member).2

omit [Field K] [LinearOrder K] [FloorRing K] in
theorem sweptFrom_sort (sort : UnstableSort) (endpoints : List Endpoint) :
    SweptFrom Endpoint.position 0 (sort.sort endpoints) :=
  ⟨sort.sorted endpoints, fun _ _ => Nat.zero_le _⟩

theorem mem_combineHighlights {item : (Nat × Nat) × HighlightStyle K} :
    item ∈ self.combineHighlights sort a b ↔
      ∃ gap ∈ sweep Endpoint.position self.update 0 self.empty
          (sort.sort (endpointsFrom 0 (nonemptyHighlights (a ++ b)))),
        self.iter gap.state ≠ [] ∧
          item = ((gap.start, gap.stop),
            self.currentStyle (nonemptyHighlights (a ++ b)) gap.state) := by
  rw [combineHighlights, combinedFrom_eq_filterMap, List.mem_filterMap]
  apply exists_congr
  intro gap
  apply and_congr_right
  intro _
  by_cases active : self.iter gap.state ≠ []
  · rw [if_pos active, Option.some.injEq]
    exact ⟨fun same => ⟨active, same.symm⟩, fun both => both.2.symm⟩
  · rw [if_neg active]
    constructor
    · intro absurd
      cases absurd
    · rintro ⟨activates, -⟩
      exact (active activates).elim

/-- An item at a byte that it covers. -/
theorem item_at {item : (Nat × Nat) × HighlightStyle K}
    (member : item ∈ self.combineHighlights sort a b) {i : Nat} (after : item.1.1 ≤ i)
    (before : i < item.1.2) :
    covering (a ++ b) i ≠ [] ∧
      item.2 = HighlightStyle.foldHighlights
        (self.activeStyles sort (nonemptyHighlights (a ++ b)) i) := by
  rcases mem_combineHighlights.1 member with ⟨gap, among, active, rfl⟩
  have state : gap.state = self.activeAt sort (nonemptyHighlights (a ++ b)) i :=
    state_of_mem_sweep (sweptFrom_sort sort _) among after before
  constructor
  · rw [← covering_nonemptyHighlights,
      ← iter_activeAt_ne_nil_iff sort lt_of_mem_nonemptyHighlights, ← state]
    exact active
  · rw [← currentStyle_activeAt, ← state]

/-- Where something covers a byte there is an item. -/
theorem exists_item {i : Nat} (covers : covering (a ++ b) i ≠ []) :
    ∃ item ∈ self.combineHighlights sort a b, item.1.1 ≤ i ∧ i < item.1.2 := by
  rw [← covering_nonemptyHighlights] at covers
  rcases covering_ne_nil_iff.1 covers with ⟨highlight, among, -, before⟩
  rcases List.mem_iff_getElem?.mp among with ⟨id, found⟩
  have isEnd : (⟨highlight.1.2, id, false⟩ : Endpoint) ∈
      sort.sort (endpointsFrom 0 (nonemptyHighlights (a ++ b))) := by
    rw [(sort.perm _).mem_iff, mem_endpoints_iff lt_of_mem_nonemptyHighlights]
    exact ⟨highlight, found, lt_of_mem_nonemptyHighlights highlight among, rfl⟩
  have inGap : ∃ gap ∈ sweep Endpoint.position self.update 0 self.empty
      (sort.sort (endpointsFrom 0 (nonemptyHighlights (a ++ b)))), gap.start ≤ i ∧ i < gap.stop :=
    exists_mem_sweep (Nat.zero_le i) _ isEnd before
  rcases inGap with ⟨gap, member, within⟩
  have state : gap.state = self.activeAt sort (nonemptyHighlights (a ++ b)) i :=
    state_of_mem_sweep (sweptFrom_sort sort _) member within.1 within.2
  refine ⟨_, mem_combineHighlights.2 ⟨gap, member, ?_, rfl⟩, within⟩
  rw [state]
  exact (iter_activeAt_ne_nil_iff sort lt_of_mem_nonemptyHighlights).mpr covers

theorem pairwise_combineHighlights :
    (self.combineHighlights sort a b).Pairwise fun first second => first.1.2 ≤ second.1.1 := by
  rw [combineHighlights, combinedFrom_eq_filterMap]
  apply (pairwise_sweep (sweptFrom_sort sort _)).filterMap
  intro first second ordered item isItem other isOther
  split at isItem
  next =>
    split at isOther
    next =>
      cases isItem
      cases isOther
      exact ordered
    next => cases isOther
  next => cases isItem

end HashSet

/-! ## Runs of a highlighted text -/

namespace TextStyle

variable {A : Type} [Field K] [LinearOrder K] [FloorRing K]

/-- Items in order, within a text. -/
structure InText (textLen ix : Nat) (items : List ((Nat × Nat) × HighlightStyle K)) : Prop where
  from_ix : ∀ item ∈ items, ix ≤ item.1.1
  within : ∀ item ∈ items, item.1.1 < item.1.2 ∧ item.1.2 ≤ textLen
  sorted : items.Pairwise fun first second => first.1.2 ≤ second.1.1

/-- A run of one style. -/
theorem map_range'_eq_replicate {β : Type} {f : Nat → β} {value : β} {start count : Nat}
    (same : ∀ i, start ≤ i → i < start + count → f i = value) :
    (List.range' start count).map f = List.replicate count value := by
  rw [List.eq_replicate_iff]
  constructor
  · rw [List.length_map, List.length_range']
  · intro other member
    rcases List.mem_map.mp member with ⟨i, inRange, rfl⟩
    rw [List.mem_range'_1] at inRange
    exact same i inRange.1 inRange.2

omit [Field K] [LinearOrder K] [FloorRing K] in
theorem styles_optionalRun (style : TextStyle K (Font A K) (TextDecoration K))
    (start stop : Nat) :
    styles (if start < stop then [style.toRun (stop - start)] else []) =
      List.replicate (stop - start) (style.font, style.decoration) := by
  by_cases before : start < stop
  · rw [if_pos before]
    exact List.flatMap_singleton _ _
  · rw [if_neg before, Nat.sub_eq_zero_of_le (not_lt.mp before)]
    rfl

/-- The runs of a text give every byte the style of the item that covers it. -/
theorem styles_computeRuns (defaultStyle : TextStyle K (Font A K) (TextDecoration K))
    {textLen ix : Nat} {items : List ((Nat × Nat) × HighlightStyle K)} (reached : ix ≤ textLen)
    (inText : InText textLen ix items) {styleAt : Nat → HighlightStyle K}
    (covered : ∀ item ∈ items, ∀ i, item.1.1 ≤ i → i < item.1.2 → styleAt i = item.2)
    (uncovered : ∀ i, ix ≤ i → (∀ item ∈ items, ¬ (item.1.1 ≤ i ∧ i < item.1.2)) →
      styleAt i = .default) :
    styles (defaultStyle.computeRuns textLen ix items) =
      (List.range' ix (textLen - ix)).map fun i => defaultStyle.styleOf (styleAt i) := by
  induction items generalizing ix with
  | nil =>
      rw [computeRuns, styles_optionalRun, map_range'_eq_replicate]
      intro i after _
      rw [uncovered i after (fun item member => by cases member)]
      rfl
  | cons item items ih =>
      rcases item with ⟨⟨start, stop⟩, highlight⟩
      have fromIx : ix ≤ start := inText.from_ix _ List.mem_cons_self
      have inside : start < stop ∧ stop ≤ textLen := inText.within _ List.mem_cons_self
      rcases List.pairwise_cons.mp inText.sorted with ⟨behind, sorted⟩
      have restInText : InText textLen stop items :=
        ⟨behind, fun item member => inText.within item (List.mem_cons_of_mem _ member), sorted⟩
      have rest := ih inside.2 restInText
        (fun item member => covered item (List.mem_cons_of_mem _ member)) (by
          intro i after none
          apply uncovered i (fromIx.trans (inside.1.le.trans after))
          intro item member
          rcases List.mem_cons.mp member with rfl | member
          · exact fun within => absurd within.2 (not_lt.mpr after)
          · exact none item member)
      have between : (List.range' ix (start - ix)).map
          (fun i => defaultStyle.styleOf (styleAt i)) =
            List.replicate (start - ix) (defaultStyle.font, defaultStyle.decoration) := by
        apply map_range'_eq_replicate
        intro i after before
        have inFront : i < start := by omega
        rw [uncovered i after]
        · rfl
        · intro item member
          rcases List.mem_cons.mp member with rfl | member
          · exact fun within => absurd within.1 (not_le.mpr inFront)
          · have further : start ≤ item.1.1 := inside.1.le.trans (behind item member)
            exact fun within => absurd (further.trans within.1) (not_le.mpr inFront)
      have own : (List.range' start (stop - start)).map
          (fun i => defaultStyle.styleOf (styleAt i)) =
            List.replicate (stop - start) (defaultStyle.styleOf highlight) := by
        apply map_range'_eq_replicate
        intro i after before
        have inOwn : i < stop := by
          have together := Nat.add_sub_cancel' inside.1.le
          omega
        rw [covered _ List.mem_cons_self i after inOwn]
      have toStop : List.range' ix (textLen - ix) = List.range' ix (start - ix) ++
          (List.range' start (stop - start) ++ List.range' stop (textLen - stop)) := by
        have first := List.range'_append_1 (s := start) (m := stop - start) (n := textLen - stop)
        have second := List.range'_append_1 (s := ix) (m := start - ix) (n := textLen - start)
        rw [Nat.add_sub_cancel' inside.1.le, show stop - start + (textLen - stop) =
          textLen - start by omega] at first
        rw [Nat.add_sub_cancel' fromIx, show start - ix + (textLen - start) =
          textLen - ix by omega] at second
        rw [first, second]
      rw [toStop, List.map_append, List.map_append, between, own, ← rest,
        ← styles_optionalRun defaultStyle ix start]
      rw [computeRuns]
      simp only [styles, List.flatMap_append, List.flatMap_cons]
      rfl

end TextStyle

/-! ## The pointwise fold -/

/-- The output is the fold of the input at every byte. -/
structure PointwiseFold [Field K] [LinearOrder K] [FloorRing K]
    (input output : List ((Nat × Nat) × HighlightStyle K)) : Prop where
  nonempty : ∀ item ∈ output, item.1.1 < item.1.2
  sorted : output.Pairwise fun first second => first.1.2 ≤ second.1.1
  union : ∀ i, (∃ item ∈ output, item.1.1 ≤ i ∧ i < item.1.2) ↔
    ∃ highlight ∈ input, highlight.1.1 ≤ i ∧ i < highlight.1.2
  covered : ∀ item ∈ output, ∀ highlight ∈ input, highlight.1.1 < highlight.1.2 →
    item.1.2 ≤ highlight.1.1 ∨ highlight.1.2 ≤ item.1.1 ∨
      highlight.1.1 ≤ item.1.1 ∧ item.1.2 ≤ highlight.1.2
  style : ∀ item ∈ output, ∀ i, item.1.1 ≤ i → i < item.1.2 →
    item.2 = HighlightStyle.foldHighlights (covering input i)
  runs : ∀ (A : Type) (defaultStyle : TextStyle K (Font A K) (TextDecoration K)) (textLen : Nat),
    (∀ highlight ∈ input, highlight.1.2 ≤ textLen) →
      ((defaultStyle.computeRuns textLen 0 output).map fun run => run.len).sum = textLen ∧
      styles (defaultStyle.computeRuns textLen 0 output) = (List.range textLen).map fun i =>
        defaultStyle.styleOf (HighlightStyle.foldHighlights (covering input i))

namespace HashSet

variable {self : HashSet S} [Field K] [LinearOrder K] [FloorRing K] {sort : UnstableSort}
  {a b : List ((Nat × Nat) × HighlightStyle K)}

theorem nonempty_item : ∀ item ∈ self.combineHighlights sort a b, item.1.1 < item.1.2 := by
  intro item member
  rcases mem_combineHighlights.1 member with ⟨gap, among, -, rfl⟩
  exact start_lt_stop_of_mem_sweep among

theorem union_items (i : Nat) :
    (∃ item ∈ self.combineHighlights sort a b, item.1.1 ≤ i ∧ i < item.1.2) ↔
      ∃ highlight ∈ a ++ b, highlight.1.1 ≤ i ∧ i < highlight.1.2 := by
  constructor
  · rintro ⟨item, member, after, before⟩
    exact covering_ne_nil_iff.1 (item_at member after before).1
  · intro covers
    exact exists_item (covering_ne_nil_iff.2 covers)

/-- No range ends within an item. -/
theorem covered_item {item : (Nat × Nat) × HighlightStyle K}
    (member : item ∈ self.combineHighlights sort a b)
    {highlight : (Nat × Nat) × HighlightStyle K} (among : highlight ∈ a ++ b)
    (nonempty : highlight.1.1 < highlight.1.2) :
    item.1.2 ≤ highlight.1.1 ∨ highlight.1.2 ≤ item.1.1 ∨
      highlight.1.1 ≤ item.1.1 ∧ item.1.2 ≤ highlight.1.2 := by
  rcases mem_combineHighlights.1 member with ⟨gap, inSweep, -, rfl⟩
  have kept : highlight ∈ nonemptyHighlights (a ++ b) :=
    List.mem_filter.mpr ⟨among, decide_eq_true nonempty⟩
  rcases List.mem_iff_getElem?.mp kept with ⟨id, found⟩
  have isEnd : ∀ isStart : Bool,
      (⟨if isStart then highlight.1.1 else highlight.1.2, id, isStart⟩ : Endpoint) ∈
        sort.sort (endpointsFrom 0 (nonemptyHighlights (a ++ b))) := by
    intro isStart
    rw [(sort.perm _).mem_iff, mem_endpoints_iff lt_of_mem_nonemptyHighlights]
    exact ⟨highlight, found, nonempty, rfl⟩
  rcases not_within_of_mem_sweep (sweptFrom_sort sort _) inSweep (isEnd true) with
    startsBefore | startsBehind
  · rcases not_within_of_mem_sweep (sweptFrom_sort sort _) inSweep (isEnd false) with
      endsBefore | endsBehind
    · exact Or.inr (Or.inl endsBefore)
    · exact Or.inr (Or.inr ⟨startsBefore, endsBehind⟩)
  · exact Or.inl startsBehind

/-- Combined highlights are the pointwise fold exactly where the order of the set of active
highlights makes no difference to the fold of their styles. -/
theorem combineHighlights_pointwise_iff (self : HashSet S) (sort : UnstableSort)
    (a b : List ((Nat × Nat) × HighlightStyle K)) :
    PointwiseFold (a ++ b) (self.combineHighlights sort a b) ↔
      ∀ i, HighlightStyle.foldHighlights
          (self.activeStyles sort (nonemptyHighlights (a ++ b)) i) =
        HighlightStyle.foldHighlights (covering (a ++ b) i) := by
  constructor
  · intro pointwise i
    by_cases covers : covering (a ++ b) i ≠ []
    · have inItem : ∃ item ∈ self.combineHighlights sort a b, item.1.1 ≤ i ∧ i < item.1.2 :=
        exists_item covers
      rcases inItem with ⟨item, member, after, before⟩
      rw [← (item_at member after before).2]
      exact pointwise.style item member i after before
    · have inactive : self.iter (self.activeAt sort (nonemptyHighlights (a ++ b)) i) = [] := by
        by_contra active
        rw [← Ne, iter_activeAt_ne_nil_iff sort lt_of_mem_nonemptyHighlights,
          covering_nonemptyHighlights] at active
        exact covers active
      rw [activeStyles, inactive, not_not.mp covers]
      rfl
  · intro same
    have style : ∀ item ∈ self.combineHighlights sort a b, ∀ i, item.1.1 ≤ i → i < item.1.2 →
        item.2 = HighlightStyle.foldHighlights (covering (a ++ b) i) := by
      intro item member i after before
      rw [(item_at member after before).2, same]
    constructor
    · exact nonempty_item
    · exact pairwise_combineHighlights
    · exact union_items
    · intro item member highlight among nonempty
      exact covered_item member among nonempty
    · exact style
    · intro A defaultStyle textLen within
      have inText : TextStyle.InText textLen 0 (self.combineHighlights sort a b) := by
        constructor
        · exact fun _ _ => Nat.zero_le _
        · intro item member
          have nonempty := nonempty_item item member
          refine ⟨nonempty, ?_⟩
          have last := (union_items (item.1.2 - 1)).mp ⟨item, member, by omega, by omega⟩
          rcases last with ⟨highlight, among, -, before⟩
          have inside := within highlight among
          omega
        · exact pairwise_combineHighlights
      have bytes : styles (defaultStyle.computeRuns textLen 0 (self.combineHighlights sort a b)) =
          (List.range textLen).map fun i =>
            defaultStyle.styleOf (HighlightStyle.foldHighlights (covering (a ++ b) i)) := by
        rw [List.range_eq_range']
        apply TextStyle.styles_computeRuns defaultStyle (Nat.zero_le _) inText
        · intro item member i after before
          exact (style item member i after before).symm
        · intro i _ none
          have uncovered : covering (a ++ b) i = [] := by
            by_contra covers
            rcases (union_items i).mpr (covering_ne_nil_iff.1 covers) with
              ⟨item, member, within⟩
            exact none item member within
          rw [uncovered]
          rfl
      refine ⟨?_, bytes⟩
      rw [← length_styles, bytes, List.length_map, List.length_range]

/-! ## A set whose order makes a difference -/

theorem mem_without_iff (set : List Nat) (id other : Nat) :
    other ∈ set.filter (· ≠ id) ↔ other ≠ id ∧ other ∈ set := by
  rw [List.mem_filter, decide_eq_true_eq, and_comm]

theorem mem_with_iff (set : List Nat) (id other : Nat) :
    other ∈ id :: set ↔ other = id ∨ other ∈ set :=
  List.mem_cons

theorem without_none : (List.nil : List Nat) = [] :=
  rfl

/-- A set that iterates from the latest highlight back. -/
def latestFirst : HashSet (List Nat) where
  empty := []
  insert set id := id :: set
  remove set id := set.filter (· ≠ id)
  iter set := set
  iter_empty := without_none
  mem_insert := mem_with_iff
  mem_remove := mem_without_iff

/-- Endpoints in the order of their positions. -/
def Precedes (first second : Endpoint) : Prop :=
  first.position ≤ second.position

instance : DecidableRel Precedes :=
  fun first second => inferInstanceAs (Decidable (first.position ≤ second.position))

instance : Std.Total Precedes :=
  ⟨fun first second => Nat.le_total first.position second.position⟩

instance : IsTrans Endpoint Precedes :=
  ⟨fun _ _ _ before after => Nat.le_trans before after⟩

def byPosition : UnstableSort where
  sort := List.insertionSort Precedes
  perm := List.perm_insertionSort Precedes
  sorted := List.pairwise_insertionSort Precedes

def ofColor (h : ℚ) : HighlightStyle ℚ :=
  { HighlightStyle.default with color := some ⟨h, 1, 1 / 2, 1⟩ }

def threeColors : List ((Nat × Nat) × HighlightStyle ℚ) :=
  [((0, 1), ofColor 0), ((2, 6), ofColor (1 / 3)), ((3, 5), ofColor (2 / 3))]

/-- Of two highlights that are active after a third has ended, the later is folded first:
what they cover is green, where the fold in their order is blue. -/
theorem not_combineHighlights_pointwise :
    ¬ PointwiseFold (threeColors ++ [])
      (latestFirst.combineHighlights byPosition threeColors []) := by
  intro pointwise
  have green : ((3, 5), ofColor (1 / 3)) ∈
      latestFirst.combineHighlights byPosition threeColors [] := by
    decide +kernel
  have blue := pointwise.style _ green 3 (by decide) (by decide)
  exact absurd blue (by decide +kernel)

end HashSet

end Gpui
