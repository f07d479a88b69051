import Gpui.TextSystem.PositionRoundTrip

/-!
# The boundary closest to an x

The loop over the glyphs compares the two around an x.  Behind the start of the last glyph it
finds none, and the end of the line is taken, however far away; only a line of one byte is
divided in the middle.
-/

namespace Gpui

namespace LineLayout

variable {K : Type} [Field K] [LinearOrder K]

/-- The loop over the glyphs, which ends at the first that does not start before the x. -/
def closestLoop (x : K) : Nat → K → List (ShapedGlyph K) → Option Nat
  | _, _, [] => none
  | prevIndex, prevX, glyph :: glyphs =>
      if glyph.position.x ≥ x then
        if glyph.position.x - x < x - prevX then some glyph.index else some prevIndex
      else closestLoop x glyph.index glyph.position.x glyphs

/-- The character boundary closest to the given x coordinate. -/
def closestIndexForX (self : LineLayout K) (x : K) : Nat :=
  match closestLoop x 0 0 self.glyphs with
  | some index => index
  | none =>
      if self.len = 1 then
        if x > self.width / (2 : ℕ) then 1 else 0
      else self.len

/-- The glyphs of the line increase in index and position, and are glyphs of its text. -/
structure Shaped (layout : LineLayout K) : Prop where
  increasing : layout.glyphs.Pairwise fun first second =>
    first.index < second.index ∧ first.position.x < second.position.x
  inside : ∀ glyph ∈ layout.glyphs, glyph.index < layout.len

/-- The index is one of a boundary, and no boundary is closer to the x. -/
def Closest (layout : LineLayout K) (x : K) (index : Nat) : Prop :=
  (∃ boundary ∈ layout.boundaries, boundary.1 = index) ∧
    ∀ boundary ∈ layout.boundaries, |x - layout.xForIndex index| ≤ |x - boundary.2|

/-- Where a glyph starts at the x or after it: the first glyph is not passed over for index
zero, and a glyph is as close as the end.  Otherwise the end is as close as any glyph, or, in
the left half of a line of one byte, the glyph is as close as the end. -/
def ComparesClosest (layout : LineLayout K) (x : K) : Prop :=
  match layout.glyphs.find? fun glyph => glyph.position.x ≥ x with
  | some glyph =>
      ((∃ before ∈ layout.glyphs, before.position.x < x) ∨ glyph.index = 0 ∨
          glyph.position.x - x < x) ∧
        ∃ nearer ∈ layout.glyphs, |x - nearer.position.x| ≤ |x - layout.width|
  | none =>
      if layout.len = 1 ∧ x ≤ layout.width / (2 : ℕ) then
        ∃ glyph ∈ layout.glyphs, |x - glyph.position.x| ≤ |x - layout.width|
      else ∀ glyph ∈ layout.glyphs, |x - layout.width| ≤ |x - glyph.position.x|

variable {layout : LineLayout K}

/-! ## The loop -/

theorem closestLoop_none {x : K} {glyphs : List (ShapedGlyph K)}
    (before : ∀ glyph ∈ glyphs, glyph.position.x < x) (prevIndex : Nat) (prevX : K) :
    closestLoop x prevIndex prevX glyphs = none := by
  induction glyphs generalizing prevIndex prevX with
  | nil => rfl
  | cons glyph glyphs ih =>
      rw [List.forall_mem_cons] at before
      rw [closestLoop, if_neg (not_le.mpr before.1)]
      exact ih before.2 _ _

/-- The loop ends between a glyph before the x and one that is not. -/
theorem closestLoop_between {x : K} {front back : List (ShapedGlyph K)}
    {prev glyph : ShapedGlyph K} (before : ∀ other ∈ front, other.position.x < x)
    (prevBefore : prev.position.x < x) (after : x ≤ glyph.position.x) (prevIndex : Nat)
    (prevX : K) :
    closestLoop x prevIndex prevX (front ++ prev :: glyph :: back) =
      if glyph.position.x - x < x - prev.position.x then some glyph.index
      else some prev.index := by
  induction front generalizing prevIndex prevX with
  | nil => rw [List.nil_append, closestLoop, if_neg (not_le.mpr prevBefore), closestLoop,
      if_pos after]
  | cons other front ih =>
      rw [List.forall_mem_cons] at before
      rw [List.cons_append, closestLoop, if_neg (not_le.mpr before.1)]
      exact ih before.2 _ _

/-! ## The x of a boundary -/

omit [Field K] in
theorem Shaped.xForIndex_of_mem (shaped : layout.Shaped) {glyph : ShapedGlyph K}
    (member : glyph ∈ layout.glyphs) : layout.xForIndex glyph.index = glyph.position.x := by
  rcases List.append_of_mem member with ⟨front, back, split⟩
  have found : (layout.glyphs.find? fun other => other.index ≥ glyph.index) = some glyph := by
    rw [List.find?_eq_some_iff_append]
    refine ⟨decide_eq_true le_rfl, front, back, split, ?_⟩
    intro other among
    have increasing := shaped.increasing
    rw [split, List.pairwise_append] at increasing
    have less := (increasing.2.2 other among glyph List.mem_cons_self).1
    simpa using less
  rw [xForIndex, found]

omit [Field K] in
theorem Shaped.xForIndex_len (shaped : layout.Shaped) :
    layout.xForIndex layout.len = layout.width := by
  have found : (layout.glyphs.find? fun other => other.index ≥ layout.len) = none := by
    rw [List.find?_eq_none]
    intro glyph member
    simpa using shaped.inside glyph member
  rw [xForIndex, found]

theorem closest_iff {x : K} {index : Nat} :
    layout.Closest x index ↔
      ((∃ glyph ∈ layout.glyphs, glyph.index = index) ∨ index = layout.len) ∧
        (∀ glyph ∈ layout.glyphs, |x - layout.xForIndex index| ≤ |x - glyph.position.x|) ∧
        |x - layout.xForIndex index| ≤ |x - layout.width| := by
  have reaches : (∃ boundary ∈ layout.boundaries, boundary.1 = index) ↔
      (∃ glyph ∈ layout.glyphs, glyph.index = index) ∨ index = layout.len := by
    simp [boundaries, or_and_right, exists_or, eq_comm]
  have nearest : (∀ boundary ∈ layout.boundaries,
      |x - layout.xForIndex index| ≤ |x - boundary.2|) ↔
        (∀ glyph ∈ layout.glyphs, |x - layout.xForIndex index| ≤ |x - glyph.position.x|) ∧
          |x - layout.xForIndex index| ≤ |x - layout.width| := by
    rw [boundaries, List.forall_mem_append, List.forall_mem_map, List.forall_mem_singleton]
  rw [Closest, reaches, nearest]

theorem Shaped.closest_glyph_iff (shaped : layout.Shaped) {x : K} {glyph : ShapedGlyph K}
    (member : glyph ∈ layout.glyphs) :
    layout.Closest x glyph.index ↔
      (∀ other ∈ layout.glyphs, |x - glyph.position.x| ≤ |x - other.position.x|) ∧
        |x - glyph.position.x| ≤ |x - layout.width| := by
  rw [closest_iff, shaped.xForIndex_of_mem member]
  exact and_iff_right (Or.inl ⟨glyph, member, rfl⟩)

theorem Shaped.closest_len_iff (shaped : layout.Shaped) {x : K} :
    layout.Closest x layout.len ↔
      ∀ glyph ∈ layout.glyphs, |x - layout.width| ≤ |x - glyph.position.x| := by
  rw [closest_iff, shaped.xForIndex_len]
  constructor
  · intro closest
    exact closest.2.1
  · intro closest
    exact ⟨Or.inr rfl, closest, le_rfl⟩

/-! ## The closest glyph -/

section Closest

variable [IsStrictOrderedRing K] {x : K}

theorem abs_sub_le_of_le {near far : K} (after : x ≤ near) (further : near ≤ far) :
    |x - near| ≤ |x - far| := by
  rw [abs_sub_comm x near, abs_sub_comm x far, abs_of_nonneg (sub_nonneg.mpr after),
    abs_of_nonneg (sub_nonneg.mpr (after.trans further))]
  exact sub_le_sub_right further x

theorem abs_sub_le_of_ge {near far : K} (before : near ≤ x) (further : far ≤ near) :
    |x - near| ≤ |x - far| := by
  rw [abs_of_nonneg (sub_nonneg.mpr before), abs_of_nonneg (sub_nonneg.mpr (further.trans before))]
  exact sub_le_sub_left further x

omit [Field K] [IsStrictOrderedRing K] in
theorem Shaped.first_le (shaped : layout.Shaped) {glyph : ShapedGlyph K}
    {back : List (ShapedGlyph K)} (split : layout.glyphs = glyph :: back) :
    ∀ other ∈ layout.glyphs, glyph.position.x ≤ other.position.x := by
  have increasing := shaped.increasing
  rw [split, List.pairwise_cons] at increasing
  rw [split, List.forall_mem_cons]
  exact ⟨le_rfl, fun other member => (increasing.1 other member).2.le⟩

/-- The closer of the two glyphs around the x is the closest. -/
theorem Shaped.closest_between (shaped : layout.Shaped) {prev glyph chosen : ShapedGlyph K}
    {front back : List (ShapedGlyph K)} (split : layout.glyphs = front ++ prev :: glyph :: back)
    (before : prev.position.x ≤ x) (after : x ≤ glyph.position.x)
    (nearPrev : |x - chosen.position.x| ≤ |x - prev.position.x|)
    (nearGlyph : |x - chosen.position.x| ≤ |x - glyph.position.x|) :
    ∀ other ∈ layout.glyphs, |x - chosen.position.x| ≤ |x - other.position.x| := by
  have increasing := shaped.increasing
  rw [split, List.pairwise_append, List.pairwise_cons, List.pairwise_cons] at increasing
  rcases increasing with ⟨_, ⟨_, fromGlyph, _⟩, fromFront⟩
  rw [split]
  intro other member
  rcases List.mem_append.mp member with inFront | fromPrev
  · have further := (fromFront other inFront prev List.mem_cons_self).2.le
    exact nearPrev.trans (abs_sub_le_of_ge before further)
  · rcases List.mem_cons.mp fromPrev with rfl | fromThere
    · exact nearPrev
    · rcases List.mem_cons.mp fromThere with rfl | inBack
      · exact nearGlyph
      · exact nearGlyph.trans (abs_sub_le_of_le after (fromGlyph other inBack).2.le)

omit [IsStrictOrderedRing K] in
/-- The closest glyph is closest if some glyph is as close as the end. -/
theorem Shaped.closest_glyph_iff_exists (shaped : layout.Shaped) {glyph : ShapedGlyph K}
    (member : glyph ∈ layout.glyphs)
    (nearest : ∀ other ∈ layout.glyphs, |x - glyph.position.x| ≤ |x - other.position.x|) :
    layout.Closest x glyph.index ↔
      ∃ nearer ∈ layout.glyphs, |x - nearer.position.x| ≤ |x - layout.width| := by
  rw [shaped.closest_glyph_iff member, and_iff_right nearest]
  constructor
  · intro near
    exact ⟨glyph, member, near⟩
  · rintro ⟨nearer, among, near⟩
    exact (nearest nearer among).trans near

/-- A glyph starts at the x or after it, and none before. -/
theorem Shaped.closestIndexForX_first (shaped : layout.Shaped) {glyph : ShapedGlyph K}
    {back : List (ShapedGlyph K)} (split : layout.glyphs = glyph :: back)
    (after : x ≤ glyph.position.x) :
    layout.Closest x (layout.closestIndexForX x) ↔
      (glyph.index = 0 ∨ glyph.position.x - x < x) ∧
        ∃ nearer ∈ layout.glyphs, |x - nearer.position.x| ≤ |x - layout.width| := by
  have member : glyph ∈ layout.glyphs := by
    rw [split]
    exact List.mem_cons_self
  have isClosest := shaped.closest_glyph_iff_exists member fun other among =>
    abs_sub_le_of_le after (shaped.first_le split other among)
  rw [closestIndexForX, split, closestLoop, if_pos after, sub_zero, ← split]
  by_cases near : glyph.position.x - x < x
  · rw [if_pos near]
    exact isClosest.trans (and_iff_right (Or.inr near)).symm
  · rw [if_neg near, or_iff_left near]
    dsimp only
    by_cases zero : glyph.index = 0
    · rw [and_iff_right zero, ← isClosest, zero]
    · refine iff_of_false ?_ fun both => zero both.1
      intro closest
      have positive := Nat.pos_of_ne_zero zero
      rcases (closest_iff.1 closest).1 with ⟨other, among, isZero⟩ | isEnd
      · rw [split] at among
        have increasing := shaped.increasing
        rw [split, List.pairwise_cons] at increasing
        rcases List.mem_cons.mp among with rfl | inBack
        · exact zero isZero
        · have later := (increasing.1 other inBack).1
          omega
      · have inside := shaped.inside glyph member
        omega

/-- A glyph starts before the x, and one at it or after it. -/
theorem Shaped.closestIndexForX_between (shaped : layout.Shaped) {prev glyph : ShapedGlyph K}
    {front back : List (ShapedGlyph K)} (split : layout.glyphs = front ++ prev :: glyph :: back)
    (allBefore : ∀ other ∈ front ++ [prev], other.position.x < x)
    (after : x ≤ glyph.position.x) :
    layout.Closest x (layout.closestIndexForX x) ↔
      ∃ nearer ∈ layout.glyphs, |x - nearer.position.x| ≤ |x - layout.width| := by
  rw [List.forall_mem_append, List.forall_mem_singleton] at allBefore
  rcases allBefore with ⟨frontBefore, before⟩
  have prevX : |x - prev.position.x| = x - prev.position.x := abs_of_pos (sub_pos.mpr before)
  have glyphX : |x - glyph.position.x| = glyph.position.x - x := by
    rw [abs_sub_comm, abs_of_nonneg (sub_nonneg.mpr after)]
  rw [closestIndexForX, split, closestLoop_between frontBefore before after, ← split]
  by_cases near : glyph.position.x - x < x - prev.position.x
  · rw [if_pos near]
    apply shaped.closest_glyph_iff_exists (by simp [split])
    apply shaped.closest_between split before.le after _ le_rfl
    rw [prevX, glyphX]
    exact near.le
  · rw [if_neg near]
    apply shaped.closest_glyph_iff_exists (by simp [split])
    apply shaped.closest_between split before.le after le_rfl
    rw [prevX, glyphX]
    exact not_lt.mp near

omit [IsStrictOrderedRing K] in
/-- All glyphs start before the x. -/
theorem Shaped.closestIndexForX_end (shaped : layout.Shaped)
    (before : ∀ glyph ∈ layout.glyphs, glyph.position.x < x) :
    layout.Closest x (layout.closestIndexForX x) ↔
      if layout.len = 1 ∧ x ≤ layout.width / (2 : ℕ) then
        ∃ glyph ∈ layout.glyphs, |x - glyph.position.x| ≤ |x - layout.width|
      else ∀ glyph ∈ layout.glyphs, |x - layout.width| ≤ |x - glyph.position.x| := by
  rw [closestIndexForX, closestLoop_none before]
  dsimp only
  by_cases single : layout.len = 1
  · by_cases left : x ≤ layout.width / (2 : ℕ)
    · rw [if_pos single, if_neg (not_lt.mpr left), if_pos ⟨single, left⟩]
      have onlyZero : ∀ glyph ∈ layout.glyphs, glyph.index = 0 := by
        intro glyph member
        have inside := shaped.inside glyph member
        omega
      constructor
      · intro closest
        rcases (closest_iff.1 closest).1 with ⟨glyph, member, isZero⟩ | isEnd
        · rw [← isZero, shaped.closest_glyph_iff member] at closest
          exact ⟨glyph, member, closest.2⟩
        · omega
      · rintro ⟨glyph, member, near⟩
        rw [← onlyZero glyph member, shaped.closest_glyph_iff member]
        refine ⟨?_, near⟩
        intro other among
        rw [← shaped.xForIndex_of_mem member, ← shaped.xForIndex_of_mem among,
          onlyZero glyph member, onlyZero other among]
    · rw [if_pos single, if_pos (not_le.mp left), if_neg fun both => left both.2, ← single]
      exact shaped.closest_len_iff
  · rw [if_neg single, if_neg fun both => single both.1]
    exact shaped.closest_len_iff

theorem closestIndexForX_closest_iff (shaped : layout.Shaped) (x : K) :
    layout.Closest x (layout.closestIndexForX x) ↔ layout.ComparesClosest x := by
  rw [ComparesClosest]
  cases found : layout.glyphs.find? fun glyph => glyph.position.x ≥ x with
  | none =>
      apply shaped.closestIndexForX_end
      intro glyph member
      simpa using List.find?_eq_none.mp found glyph member
  | some glyph =>
      rcases List.find?_eq_some_iff_append.mp found with ⟨starts, front, back, split, before⟩
      have after : x ≤ glyph.position.x := of_decide_eq_true starts
      rcases List.eq_nil_or_concat front with rfl | ⟨front, prev, rfl⟩
      · rw [shaped.closestIndexForX_first split after]
        have noneBefore : ¬ ∃ before ∈ layout.glyphs, before.position.x < x := by
          rintro ⟨other, member, left⟩
          exact absurd (after.trans (shaped.first_le split other member)) (not_le.mpr left)
        dsimp only
        rw [or_iff_right noneBefore]
      · rw [List.concat_eq_append] at split before
        have allBefore : ∀ other ∈ front ++ [prev], other.position.x < x := by
          intro other member
          simpa using before other member
        rw [List.append_assoc, List.singleton_append] at split
        rw [shaped.closestIndexForX_between split allBefore after]
        have someBefore : ∃ before ∈ layout.glyphs, before.position.x < x :=
          ⟨prev, by simp [split], allBefore prev (by simp)⟩
        exact (and_iff_right (Or.inl someBefore)).symm

/-- Just behind the start of the second of two glyphs. -/
theorem closestIndexForX_closest_iff_two :
    let glyph : ℚ → Nat → ShapedGlyph ℚ := fun x index => ⟨1, ⟨x, 0⟩, index, false⟩
    let layout : LineLayout ℚ := ⟨10, 20, 8, 2, [⟨1, [glyph 0 0, glyph 10 1]⟩], 2⟩
    layout.Closest 11 (layout.closestIndexForX 11) ↔ layout.ComparesClosest 11 :=
  closestIndexForX_closest_iff
    { increasing := by simp [glyphs]
      inside := by simp [glyphs] } 11

/-- The second glyph starts one before the x, and the end is taken, nine behind it. -/
theorem not_closestIndexForX_closest :
    let glyph : ℚ → Nat → ShapedGlyph ℚ := fun x index => ⟨1, ⟨x, 0⟩, index, false⟩
    let layout : LineLayout ℚ := ⟨10, 20, 8, 2, [⟨1, [glyph 0 0, glyph 10 1]⟩], 2⟩
    layout.Shaped ∧ ¬ layout.Closest 11 (layout.closestIndexForX 11) := by
  dsimp only
  have shaped : Shaped (⟨10, 20, 8, 2, [⟨1, [⟨1, ⟨0, 0⟩, 0, false⟩, ⟨1, ⟨10, 0⟩, 1, false⟩]⟩],
      2⟩ : LineLayout ℚ) :=
    { increasing := by simp [glyphs]
      inside := by simp [glyphs] }
  refine ⟨shaped, ?_⟩
  rintro ⟨_, nearest⟩
  have near := nearest (1, 10) (by simp [boundaries, glyphs])
  norm_num [closestIndexForX, closestLoop, glyphs, xForIndex] at near

end Closest

end LineLayout

end Gpui
