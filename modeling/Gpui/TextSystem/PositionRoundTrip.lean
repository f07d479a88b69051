import Gpui.TextSystem.TextPosition

/-!
# From an index to its position and back

The boundaries of a line, where its glyphs start and where it ends, increase in index and in
x.  The row of an index is read at the x of the index, so the reading gives the index back,
but for two things: the first row of a line is read without the x it starts at, and the
top of a line belongs to the line before it.
-/

namespace Gpui

variable {K : Type} [Field K] [LinearOrder K]

namespace LineLayout

omit [Field K] [LinearOrder K] in
/-- Where the glyphs of a line start and where the line ends, with the index and the x. -/
def boundaries (self : LineLayout K) : List (Nat × K) :=
  self.glyphs.map (fun glyph => (glyph.index, glyph.position.x)) ++ [(self.len, self.width)]

/-- Indices and positions increase strictly. -/
def Ordered (self : LineLayout K) : Prop :=
  self.boundaries.Pairwise fun first second => first.1 < second.1 ∧ first.2 < second.2

variable {layout : LineLayout K}

omit [Field K] [LinearOrder K] in
theorem mem_boundaries {boundary : Nat × K} :
    boundary ∈ layout.boundaries ↔
      (∃ glyph ∈ layout.glyphs, (glyph.index, glyph.position.x) = boundary) ∨
        boundary = (layout.len, layout.width) := by
  simp [boundaries]

omit [Field K] in
theorem Ordered.trichotomy (ordered : layout.Ordered) {first second : Nat × K}
    (firstMember : first ∈ layout.boundaries) (secondMember : second ∈ layout.boundaries) :
    first = second ∨ (first.1 < second.1 ∧ first.2 < second.2) ∨
      (second.1 < first.1 ∧ second.2 < first.2) := by
  obtain ⟨i, iBound, rfl⟩ := List.getElem_of_mem firstMember
  obtain ⟨j, jBound, rfl⟩ := List.getElem_of_mem secondMember
  have increases := List.pairwise_iff_getElem.mp ordered
  rcases lt_trichotomy i j with less | rfl | more
  · exact Or.inr (Or.inl (increases i j iBound jBound less))
  · exact Or.inl rfl
  · exact Or.inr (Or.inr (increases j i jBound iBound more))

omit [Field K] in
theorem Ordered.lt_iff (ordered : layout.Ordered) {first second : Nat × K}
    (firstMember : first ∈ layout.boundaries) (secondMember : second ∈ layout.boundaries) :
    first.1 < second.1 ↔ first.2 < second.2 := by
  rcases ordered.trichotomy firstMember secondMember with rfl | less | more
  · simp
  · exact iff_of_true less.1 less.2
  · exact iff_of_false more.1.not_gt more.2.not_gt

omit [Field K] in
theorem Ordered.le_iff (ordered : layout.Ordered) {first second : Nat × K}
    (firstMember : first ∈ layout.boundaries) (secondMember : second ∈ layout.boundaries) :
    first.1 ≤ second.1 ↔ first.2 ≤ second.2 := by
  rw [← not_lt, ← not_lt, ordered.lt_iff secondMember firstMember]

omit [Field K] in
theorem Ordered.eq_of_index (ordered : layout.Ordered) {first second : Nat × K}
    (firstMember : first ∈ layout.boundaries) (secondMember : second ∈ layout.boundaries)
    (same : first.1 = second.1) : first = second := by
  rcases ordered.trichotomy firstMember secondMember with equal | less | more
  · exact equal
  · exact absurd same less.1.ne
  · exact absurd same more.1.ne'

omit [Field K] [LinearOrder K] in
theorem end_mem_boundaries (layout : LineLayout K) :
    (layout.len, layout.width) ∈ layout.boundaries :=
  mem_boundaries.2 (Or.inr rfl)

omit [Field K] in
theorem Ordered.le_end (ordered : layout.Ordered) {boundary : Nat × K}
    (member : boundary ∈ layout.boundaries) : boundary.1 ≤ layout.len := by
  have order := ordered
  rw [Ordered, boundaries, List.pairwise_append] at order
  rcases mem_boundaries.1 member with ⟨glyph, among, rfl⟩ | rfl
  · exact (order.2.2 _ (List.mem_map_of_mem among) _ List.mem_cons_self).1.le
  · exact le_rfl

omit [Field K] [LinearOrder K] in
/-- The glyph at or after an index is the first boundary there; else the line ends. -/
theorem find?_boundaries {index : Nat} (inside : index ≤ layout.len) :
    ∃ boundary, (layout.boundaries.find? fun boundary => index ≤ boundary.1) = some boundary ∧
      layout.xForIndex index = boundary.2 := by
  rw [boundaries, List.find?_append, List.find?_map, xForIndex]
  cases found : layout.glyphs.find? fun glyph => glyph.index ≥ index with
  | some glyph =>
      refine ⟨(glyph.index, glyph.position.x), ?_, rfl⟩
      rw [show (fun boundary : Nat × K => decide (index ≤ boundary.1)) ∘
        (fun glyph : ShapedGlyph K => (glyph.index, glyph.position.x)) =
          fun glyph => decide (glyph.index ≥ index) from rfl, found]
      rfl
  | none =>
      refine ⟨(layout.len, layout.width), ?_, rfl⟩
      rw [show (fun boundary : Nat × K => decide (index ≤ boundary.1)) ∘
        (fun glyph : ShapedGlyph K => (glyph.index, glyph.position.x)) =
          fun glyph => decide (glyph.index ≥ index) from rfl, found]
      simp [inside]

omit [Field K] in
/-- The x of an index is that of the first boundary at or after it. -/
theorem Ordered.exists_xForIndex (ordered : layout.Ordered) {index : Nat}
    (inside : index ≤ layout.len) :
    ∃ boundary ∈ layout.boundaries, index ≤ boundary.1 ∧
      layout.xForIndex index = boundary.2 ∧
      ∀ other ∈ layout.boundaries, index ≤ other.1 → boundary.1 ≤ other.1 := by
  rcases find?_boundaries inside with ⟨boundary, found, x⟩
  rcases List.find?_eq_some_iff_append.mp found with ⟨atLeast, front, back, split, before⟩
  refine ⟨boundary, by simp [split], by simpa using atLeast, x, ?_⟩
  intro other among reaches
  have order := ordered
  rw [Ordered, split, List.pairwise_append, List.pairwise_cons] at order
  rw [split] at among
  rcases List.mem_append.mp among with inFront | fromThere
  · have short := before other inFront
    simp only [reaches, decide_true, Bool.not_true, Bool.false_eq_true] at short
  · rcases List.mem_cons.mp fromThere with rfl | inBack
    · exact le_rfl
    · exact (order.2.1.1 other inBack).1.le

omit [Field K] in
theorem Ordered.xForIndex_of_mem (ordered : layout.Ordered) {boundary : Nat × K}
    (member : boundary ∈ layout.boundaries) : layout.xForIndex boundary.1 = boundary.2 := by
  rcases ordered.exists_xForIndex (ordered.le_end member) with
    ⟨first, firstMember, reaches, x, least⟩
  have same := le_antisymm (least boundary member le_rfl) reaches
  rw [x, ordered.eq_of_index firstMember member same]

omit [Field K] in
/-- The x of an index is before exactly the boundaries after the first it reaches. -/
theorem Ordered.xForIndex_le_iff (ordered : layout.Ordered) {index : Nat}
    (inside : index ≤ layout.len) {boundary : Nat × K}
    (member : boundary ∈ layout.boundaries) :
    layout.xForIndex index ≤ boundary.2 ↔ index ≤ boundary.1 := by
  rcases ordered.exists_xForIndex inside with ⟨first, firstMember, reaches, x, least⟩
  rw [x, ← ordered.le_iff firstMember member]
  constructor
  · exact reaches.trans
  · exact least boundary member

omit [Field K] in
theorem Ordered.glyphs (ordered : layout.Ordered) :
    layout.glyphs.Pairwise fun first second => first.index < second.index := by
  have order := ordered
  rw [Ordered, boundaries, List.pairwise_append, List.pairwise_map] at order
  exact order.1.imp fun less => less.1

omit [Field K] in
/-- The character at an x is the last glyph that does not start behind it. -/
theorem Ordered.indexForX (ordered : layout.Ordered) {x : K} (inside : x < layout.width) :
    (∃ glyph ∈ layout.glyphs, glyph.position.x ≤ x ∧
        (∀ other ∈ layout.glyphs, glyph.index < other.index → x < other.position.x) ∧
        layout.indexForX x = some glyph.index) ∨
      (∀ glyph ∈ layout.glyphs, x < glyph.position.x) ∧ layout.indexForX x = some 0 := by
  rw [LineLayout.indexForX, if_neg (not_le.mpr inside)]
  cases found : layout.glyphs.reverse.find? fun glyph => glyph.position.x ≤ x with
  | none =>
      refine Or.inr ⟨fun glyph member => ?_, rfl⟩
      simpa using List.find?_eq_none.mp found glyph (List.mem_reverse.mpr member)
  | some glyph =>
      rcases List.find?_eq_some_iff_append.mp found with ⟨starts, front, back, split, behind⟩
      have member : glyph ∈ layout.glyphs := by
        rw [← List.mem_reverse, split]
        simp
      refine Or.inl ⟨glyph, member, by simpa using starts, ?_, rfl⟩
      intro other among later
      have place : other ∈ front ++ glyph :: back := split ▸ List.mem_reverse.mpr among
      rcases List.mem_append.mp place with inFront | fromThere
      · simpa using behind other inFront
      · rcases List.mem_cons.mp fromThere with rfl | inBack
        · exact absurd later (lt_irrefl _)
        · have order := List.pairwise_reverse.mpr ordered.glyphs
          rw [split, List.pairwise_append, List.pairwise_cons] at order
          exact absurd later (order.2.1.1 other inBack).not_gt

end LineLayout

/-! ## Rows -/

namespace WrappedLineLayout

/-- The boundaries of a line increase, and it is wrapped at glyphs. -/
structure Measured (line : WrappedLineLayout K) : Prop where
  ordered : line.unwrappedLayout.Ordered
  wrapped : ∃ wraps, line.wrapBoundaries.mapM line.unwrappedLayout.glyphAt = some wraps

/-- The first row of a line is read as if it started at zero: an index is read there if it is
the last boundary at or before what its x is from the x of the line's start. -/
def ReadInFirstRow (line : WrappedLineLayout K) (rowEnd : Nat × K) (index : Nat) : Prop :=
  let layout := line.unwrappedLayout
  let startX := layout.xForIndex 0
  (0 < startX ∧ index = 0) ∨
    (startX ≤ 0 ∧
      (index = rowEnd.1 ∨
        (∃ boundary ∈ layout.boundaries, boundary.1 = index) ∧
          ∀ boundary ∈ layout.boundaries, index < boundary.1 →
            layout.xForIndex index - startX < boundary.2))

variable {line : WrappedLineLayout K}

omit [Field K] [LinearOrder K] in
theorem mem_glyphs_of_glyphAt {layout : LineLayout K} {boundary : WrapBoundary}
    {glyph : ShapedGlyph K} (found : layout.glyphAt boundary = some glyph) :
    glyph ∈ layout.glyphs := by
  rcases Option.bind_eq_some_iff.mp found with ⟨run, here, there⟩
  exact List.mem_flatMap.mpr ⟨run, List.mem_of_getElem? here, List.mem_of_getElem? there⟩

omit [Field K] [LinearOrder K] in
/-- The glyphs of the wrap boundaries, one by one. -/
theorem getElem?_of_mapM {wraps : List (ShapedGlyph K)} {boundaries : List WrapBoundary}
    {layout : LineLayout K} (wrapped : boundaries.mapM layout.glyphAt = some wraps) (ix : Nat) :
    boundaries.length = wraps.length ∧
      wraps[ix]? = boundaries[ix]?.bind layout.glyphAt := by
  induction boundaries generalizing wraps ix with
  | nil =>
      rcases Option.some.inj wrapped with rfl
      simp
  | cons boundary boundaries ih =>
      simp only [List.mapM_cons, Option.bind_eq_bind, Option.bind_eq_some_iff, Option.pure_def,
        Option.some.injEq] at wrapped
      rcases wrapped with ⟨glyph, found, rest, wrappedRest, rfl⟩
      cases ix with
      | zero => simpa [found] using (ih wrappedRest 0).1
      | succ ix => simpa using ih wrappedRest ix

/-- The row that an index is in, with where the row starts and ends. -/
structure InRow (line : WrappedLineLayout K) (index row : Nat) (start rowEnd : Nat × K) :
    Prop where
  start_eq : line.wrappedLineStart row = some (some start)
  end_eq : line.wrappedLineEnd row = some rowEnd
  inside : row ≤ line.wrapBoundaries.length
  end_mem : rowEnd ∈ line.unwrappedLayout.boundaries
  reaches : index ≤ rowEnd.1
  first : row = 0 → start = (0, 0)
  later : 0 < row → start ∈ line.unwrappedLayout.boundaries ∧ start.1 < index
  past : 0 < row → ∃ firstEnd, line.wrappedLineEnd 0 = some firstEnd ∧ firstEnd.1 < index

omit [LinearOrder K] in
/-- Rows that end before the index are passed. -/
theorem positionInRows_append {index : Nat} {lineHeight : K} {before : List Nat}
    (ended : ∀ rowEnd ∈ before, rowEnd < index) {ix start : Nat} (started : start ≤ index)
    (rest : List Nat) :
    line.positionInRows index lineHeight ix start (before ++ rest) =
      line.positionInRows index lineHeight (ix + before.length) (before.getLastD start)
        rest := by
  induction before generalizing ix start with
  | nil => rfl
  | cons rowEnd before ih =>
      have less := ended rowEnd List.mem_cons_self
      rw [List.cons_append, positionInRows, if_neg (not_lt.mpr started), if_pos less,
        ih (fun other member => ended other (List.mem_cons_of_mem _ member)) less.le,
        List.getLastD_cons, List.length_cons, Nat.add_assoc, Nat.add_comm 1]

omit [LinearOrder K] in
/-- The row whose end is the first to reach the index has its position. -/
theorem positionInRows_cons {index : Nat} {lineHeight : K} {ix start rowEnd : Nat}
    (started : start ≤ index) (reaches : index ≤ rowEnd) (rest : List Nat) :
    line.positionInRows index lineHeight ix start (rowEnd :: rest) =
      some ⟨line.unwrappedLayout.xForIndex index - line.unwrappedLayout.xForIndex start,
        ix * lineHeight⟩ := by
  rw [positionInRows, if_neg (not_lt.mpr started), if_neg (not_lt.mpr reaches)]

omit [Field K] [LinearOrder K] in
/-- The wraps before an index, and the others. -/
theorem exists_split (index : Nat) (wraps : List (ShapedGlyph K)) :
    ∃ before after, wraps = before ++ after ∧ (∀ glyph ∈ before, glyph.index < index) ∧
      ∀ glyph, after.head? = some glyph → index ≤ glyph.index := by
  refine ⟨wraps.takeWhile fun glyph => glyph.index < index,
    wraps.dropWhile fun glyph => glyph.index < index, List.takeWhile_append_dropWhile.symm,
    ?_, ?_⟩
  · intro glyph member
    simpa using List.mem_takeWhile_imp member
  · intro glyph first
    have stops := List.head?_dropWhile_not (fun glyph => decide (glyph.index < index)) wraps
    rw [first] at stops
    simpa using stops

theorem Measured.exists_row (measured : line.Measured) {index : Nat} (inside : index ≤ line.len)
    (lineHeight : K) :
    ∃ row start rowEnd, line.InRow index row start rowEnd ∧
      line.positionForIndex index lineHeight =
        some (some ⟨line.unwrappedLayout.xForIndex index -
          line.unwrappedLayout.xForIndex start.1, row * lineHeight⟩) := by
  rcases measured.wrapped with ⟨wraps, wrapped⟩
  rcases exists_split index wraps with ⟨before, after, rfl, ended, reaching⟩
  have atWrap (ix : Nat) := (getElem?_of_mapM wrapped ix).2
  have count := (getElem?_of_mapM wrapped 0).1
  -- The first row that reaches the index ends at the next wrap boundary, or with the line.
  obtain ⟨rowEnd, endEq, endMember, reaches, positioned⟩ : ∃ rowEnd : Nat × K,
      line.wrappedLineEnd before.length = some rowEnd ∧
        rowEnd ∈ line.unwrappedLayout.boundaries ∧ index ≤ rowEnd.1 ∧
        ∃ rest, after.map ShapedGlyph.index ++ [line.len] = rowEnd.1 :: rest := by
    cases after with
    | nil =>
        refine ⟨(line.unwrappedLayout.len, line.unwrappedLayout.width), ?_,
          LineLayout.end_mem_boundaries _, inside, [], rfl⟩
        have past : line.wrapBoundaries[before.length]? = none := by
          rw [List.getElem?_eq_none_iff, count]
          simp
        rw [wrappedLineEnd, past]
    | cons glyph after =>
        have here := atWrap before.length
        rw [List.getElem?_append_right le_rfl, Nat.sub_self, List.getElem?_cons_zero] at here
        rcases Option.bind_eq_some_iff.mp here.symm with ⟨boundary, there, found⟩
        refine ⟨(glyph.index, glyph.position.x), ?_,
          LineLayout.mem_boundaries.2 (Or.inl ⟨glyph, mem_glyphs_of_glyphAt found, rfl⟩),
          reaching glyph rfl, _, rfl⟩
        rw [wrappedLineEnd, there]
        simp [found]
  rcases positioned with ⟨rest, ends⟩
  -- It starts where the row before ended.
  obtain ⟨start, startEq, startIndex, first, later⟩ : ∃ start : Nat × K,
      line.wrappedLineStart before.length = some (some start) ∧
        start.1 = (before.map ShapedGlyph.index).getLastD 0 ∧
        (before.length = 0 → start = (0, 0)) ∧
        (0 < before.length →
          start ∈ line.unwrappedLayout.boundaries ∧ start.1 < index) := by
    rcases List.eq_nil_or_concat before with rfl | ⟨front, glyph, rfl⟩
    · exact ⟨(0, 0), rfl, rfl, fun _ => rfl, fun more => absurd more (lt_irrefl 0)⟩
    · rw [List.concat_eq_append] at *
      have here := atWrap front.length
      rw [List.append_assoc, List.getElem?_append_right le_rfl, Nat.sub_self] at here
      rcases Option.bind_eq_some_iff.mp here.symm with ⟨boundary, there, found⟩
      refine ⟨(glyph.index, glyph.position.x), ?_, ?_, by simp, fun _ =>
        ⟨LineLayout.mem_boundaries.2 (Or.inl ⟨glyph, mem_glyphs_of_glyphAt found, rfl⟩),
          ended glyph (by simp)⟩⟩
      · simp [wrappedLineStart, there, found]
      · rw [List.map_append, List.map_singleton, List.getLastD_concat]
  refine ⟨before.length, start, rowEnd,
    ⟨startEq, endEq, ?_, endMember, reaches, first, later, ?_⟩, ?_⟩
  · rw [count, List.length_append]
    exact Nat.le_add_right _ _
  · intro some
    obtain ⟨glyph, front, rfl⟩ := List.exists_cons_of_length_pos some
    have here := atWrap 0
    rw [List.cons_append, List.getElem?_cons_zero] at here
    rcases Option.bind_eq_some_iff.mp here.symm with ⟨boundary, there, found⟩
    refine ⟨(glyph.index, glyph.position.x), ?_, ended glyph List.mem_cons_self⟩
    rw [wrappedLineEnd, there]
    simp [found]
  · have startedBefore : start.1 ≤ index := by
      rcases Nat.eq_zero_or_pos before.length with none | some
      · rw [startIndex, List.eq_nil_of_length_eq_zero none]
        exact Nat.zero_le _
      · exact (later some).2.le
    have passed : ∀ wrapIndex ∈ before.map ShapedGlyph.index, wrapIndex < index := by
      intro wrapIndex member
      rcases List.mem_map.mp member with ⟨glyph, among, rfl⟩
      exact ended glyph among
    rw [positionForIndex, wrapped, Option.bind_eq_bind, Option.bind_some, Option.pure_def,
      List.map_append, List.append_assoc, ends,
      positionInRows_append passed (Nat.zero_le _), ← startIndex,
      positionInRows_cons startedBefore reaches, List.length_map, Nat.zero_add]

/-! ## Reading a row -/

omit [Field K] in
theorem le_width (ordered : line.unwrappedLayout.Ordered) {boundary : Nat × K}
    (member : boundary ∈ line.unwrappedLayout.boundaries) :
    boundary.2 ≤ line.unwrappedLayout.width :=
  (ordered.le_iff member (LineLayout.end_mem_boundaries _)).mp (ordered.le_end member)

omit [Field K] [LinearOrder K] in
theorem glyph_mem_boundaries {glyph : ShapedGlyph K}
    (member : glyph ∈ line.unwrappedLayout.glyphs) :
    (glyph.index, glyph.position.x) ∈ line.unwrappedLayout.boundaries :=
  LineLayout.mem_boundaries.2 (Or.inl ⟨glyph, member, rfl⟩)

/-- What a row ending there returns at an x. -/
def readAt (line : WrappedLineLayout K) (rowEnd : Nat × K) (x : K) :
    Option (Except Nat Nat) :=
  if x ≥ rowEnd.2 then some (.error rowEnd.1)
  else (line.unwrappedLayout.indexForX x).map .ok

omit [Field K] in
/-- At or after the x of an index, the index is read if it ends the row, or is a boundary
with no other up to there. -/
theorem readAt_iff (ordered : line.unwrappedLayout.Ordered) {rowEnd : Nat × K}
    (endMember : rowEnd ∈ line.unwrappedLayout.boundaries) {index : Nat}
    (reaches : index ≤ rowEnd.1) {x : K} (behind : line.unwrappedLayout.xForIndex index ≤ x)
    (started : ∃ boundary ∈ line.unwrappedLayout.boundaries, boundary.2 ≤ x) :
    ∃ result, line.readAt rowEnd x = some result ∧
      ((result = .ok index ∨ result = .error index) ↔
        index = rowEnd.1 ∨
          (∃ boundary ∈ line.unwrappedLayout.boundaries, boundary.1 = index) ∧
            ∀ boundary ∈ line.unwrappedLayout.boundaries, index < boundary.1 →
              x < boundary.2) := by
  unfold readAt
  split
  next past =>
    refine ⟨_, rfl, ?_⟩
    simp only [reduceCtorEq, Except.error.injEq, false_or]
    constructor
    · intro same
      exact Or.inl same.symm
    · rintro (same | ⟨-, before⟩)
      · exact same.symm
      · by_contra differs
        have less : index < rowEnd.1 := lt_of_le_of_ne reaches (Ne.symm differs)
        exact absurd (before rowEnd endMember less) (not_lt.mpr past)
  next within =>
    have within : x < rowEnd.2 := not_le.mp within
    have short : index ≠ rowEnd.1 := by
      rintro rfl
      rw [ordered.xForIndex_of_mem endMember] at behind
      exact absurd within (not_lt.mpr behind)
    rcases ordered.indexForX (within.trans_le (le_width ordered endMember)) with
      ⟨glyph, member, starts, last, read⟩ | ⟨none, read⟩
    · refine ⟨.ok glyph.index, by rw [read]; rfl, ?_⟩
      simp only [Except.ok.injEq, reduceCtorEq, or_false, short, false_or]
      constructor
      · rintro rfl
        refine ⟨⟨_, glyph_mem_boundaries member, rfl⟩, ?_⟩
        intro boundary among later
        rcases LineLayout.mem_boundaries.1 among with ⟨other, there, rfl⟩ | rfl
        · exact last other there later
        · exact within.trans_le (le_width ordered endMember)
      · rintro ⟨⟨boundary, among, rfl⟩, before⟩
        rw [ordered.xForIndex_of_mem among] at behind
        have notAfter : ¬ boundary.1 < glyph.index := fun later =>
          absurd (before _ (glyph_mem_boundaries member) later) (not_lt.mpr starts)
        have notBefore : ¬ glyph.index < boundary.1 := by
          intro earlier
          rcases LineLayout.mem_boundaries.1 among with ⟨other, there, rfl⟩ | rfl
          · exact absurd (last other there earlier) (not_lt.mpr behind)
          · exact absurd (within.trans_le (le_width ordered endMember)) (not_lt.mpr behind)
        exact le_antisymm (not_lt.mp notAfter) (not_lt.mp notBefore)
    · rcases started with ⟨boundary, among, starts⟩
      rcases LineLayout.mem_boundaries.1 among with ⟨glyph, there, rfl⟩ | rfl
      · exact absurd (none glyph there) (not_lt.mpr starts)
      · exact absurd (within.trans_le (le_width ordered endMember)) (not_lt.mpr starts)

omit [Field K] in
/-- Before the x of an index only a smaller index is read. -/
theorem readAt_before (ordered : line.unwrappedLayout.Ordered) {rowEnd : Nat × K}
    (endMember : rowEnd ∈ line.unwrappedLayout.boundaries) {index : Nat}
    (reaches : index ≤ rowEnd.1) {x : K} (ahead : x < line.unwrappedLayout.xForIndex index) :
    ∃ result, line.readAt rowEnd x = some result ∧
      ((result = .ok index ∨ result = .error index) ↔
        index = 0 ∧ ∀ glyph ∈ line.unwrappedLayout.glyphs, x < glyph.position.x) := by
  have inside := reaches.trans (ordered.le_end endMember)
  have within : x < rowEnd.2 :=
    ahead.trans_le ((ordered.xForIndex_le_iff inside endMember).mpr reaches)
  rw [readAt, if_neg (not_le.mpr within)]
  rcases ordered.indexForX (within.trans_le (le_width ordered endMember)) with
    ⟨glyph, member, starts, -, read⟩ | ⟨none, read⟩
  · refine ⟨.ok glyph.index, by rw [read]; rfl, ?_⟩
    have less : glyph.index < index := by
      rw [← not_le, ← ordered.xForIndex_le_iff inside (glyph_mem_boundaries member), not_le]
      exact starts.trans_lt ahead
    simp only [Except.ok.injEq, reduceCtorEq, or_false]
    constructor
    · intro same
      exact absurd same less.ne
    · rintro ⟨rfl, -⟩
      exact absurd less (Nat.not_lt_zero _)
  · refine ⟨.ok 0, by rw [read]; rfl, ?_⟩
    simp only [Except.ok.injEq, reduceCtorEq, or_false]
    constructor
    · rintro rfl
      exact ⟨rfl, none⟩
    · rintro ⟨rfl, -⟩
      rfl

section

variable [IsStrictOrderedRing K] [FloorSemiring K] {index row : Nat} {start rowEnd : Nat × K}

theorem InRow.indexForPosition (inRow : line.InRow index row start rowEnd) {lineHeight : K}
    (positive : 0 < lineHeight) {x : K} (started : 0 ≤ x) :
    line.indexForPosition ⟨x, row * lineHeight⟩ lineHeight =
      line.readAt rowEnd (x + start.2) := by
  have rowEq : ⌊(row : K) * lineHeight / lineHeight⌋₊ = row := by
    rw [mul_div_cancel_right₀ _ positive.ne', Nat.floor_natCast]
  have notBefore : ¬ x + start.2 < start.2 := by
    rw [not_lt]
    exact le_add_of_nonneg_left started
  simp only [WrappedLineLayout.indexForPosition, rowEq, inRow.start_eq, inRow.end_eq,
    Option.bind_eq_bind, Option.bind_some, if_neg notBefore, readAt, Option.pure_def]
  split
  · rfl
  · cases line.unwrappedLayout.indexForX (x + start.2) with
    | none => rfl
    | some read => rfl

/-- In a row after the first an index is read back. -/
theorem InRow.read_later (inRow : line.InRow index row start rowEnd)
    (ordered : line.unwrappedLayout.Ordered) (more : 0 < row) {lineHeight : K}
    (positive : 0 < lineHeight)
    (boundary : ∃ boundary ∈ line.unwrappedLayout.boundaries, boundary.1 = index) :
    ∃ result, line.indexForPosition
        ⟨line.unwrappedLayout.xForIndex index - line.unwrappedLayout.xForIndex start.1,
          row * lineHeight⟩ lineHeight = some result ∧
      (result = .ok index ∨ result = .error index) := by
  rcases inRow.later more with ⟨startMember, less⟩
  rcases boundary with ⟨boundary, member, rfl⟩
  have startX := ordered.xForIndex_of_mem startMember
  have x := ordered.xForIndex_of_mem member
  have increases : start.2 ≤ boundary.2 := ((ordered.lt_iff startMember member).mp less).le
  rw [inRow.indexForPosition positive (by rw [startX, x]; exact sub_nonneg.mpr increases),
    startX, sub_add_cancel]
  rcases readAt_iff ordered inRow.end_mem inRow.reaches le_rfl
    ⟨start, startMember, x ▸ increases⟩ with ⟨result, read, iff⟩
  refine ⟨result, read, iff.mpr (Or.inr ⟨⟨boundary, member, rfl⟩, ?_⟩)⟩
  intro other among later
  rw [x]
  exact (ordered.lt_iff member among).mp later

/-- In the first row an index is read as if the row started at zero. -/
theorem InRow.read_first (inRow : line.InRow index row start rowEnd)
    (ordered : line.unwrappedLayout.Ordered) (first : row = 0) {lineHeight : K}
    (positive : 0 < lineHeight) :
    ∃ result, line.indexForPosition
        ⟨line.unwrappedLayout.xForIndex index - line.unwrappedLayout.xForIndex start.1,
          row * lineHeight⟩ lineHeight = some result ∧
      ((result = .ok index ∨ result = .error index) ↔ line.ReadInFirstRow rowEnd index) := by
  have start_eq := inRow.first first
  subst start_eq
  have inside := inRow.reaches.trans (ordered.le_end inRow.end_mem)
  rcases ordered.exists_xForIndex inside with ⟨place, placeMember, -, x, -⟩
  have startLe : line.unwrappedLayout.xForIndex 0 ≤ line.unwrappedLayout.xForIndex index := by
    rw [x]
    exact (ordered.xForIndex_le_iff (Nat.zero_le _) placeMember).mpr (Nat.zero_le _)
  rw [inRow.indexForPosition positive (sub_nonneg.mpr startLe), add_zero]
  rcases lt_or_ge 0 (line.unwrappedLayout.xForIndex 0) with right | left
  · rcases readAt_before ordered inRow.end_mem inRow.reaches
      (sub_lt_self (line.unwrappedLayout.xForIndex index) right) with ⟨result, read, iff⟩
    refine ⟨result, read, iff.trans ?_⟩
    constructor
    · rintro ⟨zero, -⟩
      exact Or.inl ⟨right, zero⟩
    · rintro (⟨-, rfl⟩ | ⟨left, -⟩)
      · refine ⟨rfl, fun glyph member => ?_⟩
        rw [sub_self]
        exact right.trans_le ((ordered.xForIndex_le_iff (Nat.zero_le _)
          (glyph_mem_boundaries member)).mpr (Nat.zero_le _))
      · exact absurd right (not_lt.mpr left)
  · have behind : line.unwrappedLayout.xForIndex index ≤
        line.unwrappedLayout.xForIndex index - line.unwrappedLayout.xForIndex 0 :=
      (le_sub_self_iff _).mpr left
    rcases ordered.exists_xForIndex (Nat.zero_le line.unwrappedLayout.len) with
      ⟨origin, originMember, -, originX, -⟩
    rcases readAt_iff ordered inRow.end_mem inRow.reaches behind
      ⟨origin, originMember, originX ▸ startLe.trans behind⟩ with ⟨result, read, iff⟩
    refine ⟨result, read, iff.trans ?_⟩
    simp only [ReadInFirstRow, not_lt.mpr left, left, false_and, false_or, true_and]

end

end WrappedLineLayout

/-! ## Lines -/

namespace TextLayout

/-- The index where the line after these starts. -/
def startAfter (lines : List (WrappedLineLayout K)) : Nat :=
  (lines.map fun line => line.len + 1).sum

/-- The height of some lines. -/
def heightOf (lineHeight : K) (lines : List (WrappedLineLayout K)) : K :=
  (lines.map fun line => line.height lineHeight).sum

/-- An index that is read back at its position: if it is in the first row of its line, that
line is the first of the text, and the row reads it. -/
def ReadsBack (front : List (WrappedLineLayout K)) (line : WrappedLineLayout K)
    (index : Nat) : Prop :=
  ∀ rowEnd, line.wrappedLineEnd 0 = some rowEnd → index ≤ rowEnd.1 →
    front = [] ∧ line.ReadInFirstRow rowEnd index

variable {lineHeight : K} {front back : List (WrappedLineLayout K)}
  {line : WrappedLineLayout K}

omit [LinearOrder K] in
theorem positionInLines_append (index start : Nat) (origin : Point K) :
    positionInLines lineHeight (start + startAfter front + index) (front ++ line :: back) origin
        start =
      positionInLines lineHeight (start + startAfter front + index) (line :: back)
        { origin with y := origin.y + heightOf lineHeight front } (start + startAfter front) := by
  induction front generalizing start origin with
  | nil => simp [startAfter, heightOf]
  | cons first front ih =>
      have step := ih (start + first.len + 1)
        { origin with y := origin.y + first.height lineHeight }
      have started : start + startAfter (first :: front) =
          start + first.len + 1 + startAfter front := by
        simp only [startAfter, List.map_cons, List.sum_cons]
        omega
      rw [List.cons_append, positionInLines, started]
      have notBefore : ¬ start + first.len + 1 + startAfter front + index < start := by omega
      have after : start + first.len + 1 + startAfter front + index > start + first.len := by
        omega
      rw [if_neg notBefore, if_pos after, step]
      simp [heightOf, add_assoc]

omit [LinearOrder K] in
theorem positionInLines_cons (start : Nat) (origin : Point K) {index : Nat}
    (inside : index ≤ line.len) :
    positionInLines lineHeight (start + index) (line :: back) origin start =
      (line.positionForIndex index lineHeight).map fun position => position.map origin.add := by
  have notBefore : ¬ start + index < start := by omega
  have notAfter : ¬ start + index > start + line.len := by omega
  rw [positionInLines, if_neg notBefore, if_neg notAfter, Nat.add_sub_cancel_left]
  cases line.positionForIndex index lineHeight with
  | none => rfl
  | some position => rfl

variable [IsStrictOrderedRing K] [FloorSemiring K]

omit [FloorSemiring K] in
theorem height_pos (positive : 0 < lineHeight) : 0 < line.height lineHeight :=
  mul_pos positive (Nat.cast_pos.mpr (Nat.succ_pos _))

omit [FloorSemiring K] in
theorem heightOf_nonneg (positive : 0 < lineHeight) : 0 ≤ heightOf lineHeight front := by
  apply List.sum_nonneg
  intro height member
  rcases List.mem_map.mp member with ⟨line, -, rfl⟩
  exact (height_pos positive).le

/-- Lines whose bottom is above a position are passed. -/
theorem indexInLines_append (positive : 0 < lineHeight) {position origin : Point K}
    (below : position.y > origin.y + heightOf lineHeight front) (start : Nat) :
    indexInLines lineHeight position (front ++ line :: back) origin start =
      indexInLines lineHeight position (line :: back)
        { origin with y := origin.y + heightOf lineHeight front } (start + startAfter front) := by
  induction front generalizing start origin with
  | nil => simp [startAfter, heightOf]
  | cons first front ih =>
      have sum : heightOf lineHeight (first :: front) =
          first.height lineHeight + heightOf lineHeight front := rfl
      rw [sum, ← add_assoc] at below
      have belowFirst : position.y > origin.y + first.height lineHeight :=
        lt_of_le_of_lt (le_add_of_nonneg_right (heightOf_nonneg positive)) below
      rw [List.cons_append, indexInLines, if_pos belowFirst, ih below, sum, add_assoc]
      simp only [startAfter, List.map_cons, List.sum_cons, add_assoc]

/-- Below its rows a line reads its start. -/
theorem indexForPosition_below (positive : 0 < lineHeight) (x : K) :
    line.indexForPosition ⟨x, line.height lineHeight⟩ lineHeight = some (.error 0) := by
  have row : ⌊line.height lineHeight / lineHeight⌋₊ = line.wrapBoundaries.length + 1 := by
    rw [WrappedLineLayout.height, mul_div_cancel_left₀ _ positive.ne', Nat.floor_natCast]
  simp [WrappedLineLayout.indexForPosition, row, WrappedLineLayout.wrappedLineStart]

omit [FloorSemiring K] in
theorem row_le_height (positive : 0 < lineHeight) {row : Nat}
    (inside : row ≤ line.wrapBoundaries.length) : row * lineHeight ≤ line.height lineHeight := by
  rw [WrappedLineLayout.height, mul_comm]
  exact mul_le_mul_of_nonneg_left (Nat.cast_le.mpr (Nat.le_succ_of_le inside)) positive.le

omit [IsStrictOrderedRing K] in
/-- A position that is not below a line is read by the line. -/
theorem indexInLines_cons [IsOrderedAddMonoid K] {origin : Point K} {x y : K}
    (inside : y ≤ line.height lineHeight) (start : Nat) {result : Except Nat Nat}
    (read : line.indexForPosition ⟨x, y⟩ lineHeight = some result) :
    indexInLines lineHeight (origin.add ⟨x, y⟩) (line :: back) origin start =
      some (inText start result) := by
  have notBelow : ¬ (origin.add ⟨x, y⟩).y > origin.y + line.height lineHeight :=
    not_lt.mpr (add_le_add_right inside _)
  have within : (origin.add ⟨x, y⟩).sub origin = ⟨x, y⟩ := by
    simp [Point.add, Point.sub]
  rw [indexInLines, if_neg notBelow, within, read]
  rfl

theorem inText_iff (start : Nat) {result : Except Nat Nat} {index : Nat} :
    (inText start result = .ok (start + index) ∨ inText start result = .error (start + index)) ↔
      result = .ok index ∨ result = .error index := by
  cases result with
  | ok read => simp [inText]
  | error read => simp [inText]

/-- One letter in one row. -/
def sampleLine : WrappedLineLayout ℚ where
  unwrappedLayout :=
    { fontSize := 10
      width := 6
      ascent := 8
      descent := 2
      runs := [{
        fontId := 0
        glyphs := [{ id := 1, position := ⟨0, 0⟩, index := 0, isEmoji := false }] }]
      len := 1 }
  wrapBoundaries := []
  wrapWidth := none

theorem sampleLine_measured : sampleLine.Measured where
  ordered := by
    simp [LineLayout.Ordered, LineLayout.boundaries, LineLayout.glyphs, sampleLine]
  wrapped := ⟨[], rfl⟩

end TextLayout

end Gpui
