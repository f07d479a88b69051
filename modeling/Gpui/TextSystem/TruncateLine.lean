import Gpui.TextSystem.LineWrapper

/-!
# What truncating leaves of a line

A line is truncated when the whole pixels of its width exceed the width to truncate to.  Kept
is the longest front that leaves more than the width of the suffix, and the run at the cut
takes the suffix.
-/

namespace Gpui

/-- The kept text is the longest front of the text for which there is room. -/
structure LongestFront (room : List Char → Prop) (text kept : List Char) : Prop where
  isPrefix : kept <+: text
  fits : room kept
  longest : ∀ front, front <+: text → room front → front.length ≤ kept.length

/-- The style of a byte. -/
def styleAt {F D : Type} : List (TextRun F D) → Nat → Option (F × D)
  | [], _ => none
  | run :: runs, ix =>
      if ix < run.len then some (run.font, run.decoration) else styleAt runs (ix - run.len)

/-- Runs that cover so many bytes, and style the bytes that are kept as before.  Only an
empty suffix leaves a run that is empty and was not. -/
structure RunsAligned {F D : Type} (runs truncated : List (TextRun F D)) (kept suffix : Nat) :
    Prop where
  sum : (truncated.map TextRun.len).sum = kept + suffix
  style : ∀ ix < kept, styleAt truncated ix = styleAt runs ix
  empty : ∀ ix (run : TextRun F D), truncated[ix]? = some run → run.len = 0 →
    (∃ original, runs[ix]? = some original ∧ original.len = 0) ∨
      suffix = 0 ∧ ix + 1 = truncated.length

variable {K : Type}

def PlatformTextSystem.widthForChars [Field K] (platform : PlatformTextSystem K)
    (font : FontIdWithSize K) (text : List Char) : K :=
  (text.map (platform.computeWidthForChar font)).sum

/-! ## The runs -/

section Runs

variable {F D : Type} {suffix truncateAt : Nat} {runs : List (TextRun F D)}

variable (suffix) in
/-- The runs before the cut stay, the run at the cut is made to fit, and the others go. -/
theorem exists_updateRunsAfterTruncation (inside : truncateAt < (runs.map TextRun.len).sum) :
    ∃ front run back within, runs = front ++ run :: back ∧
      (front.map TextRun.len).sum + within = truncateAt ∧ within < run.len ∧
      updateRunsAfterTruncation suffix truncateAt runs =
        front ++ [{ run with len := within + suffix }] := by
  induction runs generalizing truncateAt with
  | nil => simp at inside
  | cons run runs ih =>
      rw [updateRunsAfterTruncation]
      by_cases passed : run.len ≤ truncateAt
      · have rest : truncateAt - run.len < (runs.map TextRun.len).sum := by
          rw [List.map_cons, List.sum_cons] at inside
          omega
        rcases ih rest with ⟨front, cut, back, within, split, sum, inCut, updated⟩
        refine ⟨run :: front, cut, back, within, by rw [split]; rfl, ?_, inCut, ?_⟩
        · rw [List.map_cons, List.sum_cons]
          omega
        · rw [if_pos passed, updated]
          rfl
      · exact ⟨[], run, runs, truncateAt, rfl, Nat.zero_add _, not_le.mp passed, if_neg passed⟩

theorem styleAt_append (front runs : List (TextRun F D)) (ix : Nat) :
    styleAt (front ++ runs) ix =
      if ix < (front.map TextRun.len).sum then styleAt front ix
      else styleAt runs (ix - (front.map TextRun.len).sum) := by
  induction front generalizing ix with
  | nil => rfl
  | cons run front ih =>
      rw [List.cons_append, styleAt, styleAt, List.map_cons, List.sum_cons]
      by_cases inRun : ix < run.len
      · rw [if_pos inRun, if_pos inRun, if_pos (Nat.lt_add_right _ inRun)]
      · rw [if_neg inRun, if_neg inRun, ih]
        have shifted : ix - run.len < (front.map TextRun.len).sum ↔
            ix < run.len + (front.map TextRun.len).sum := by omega
        simp only [shifted, Nat.sub_sub]

theorem runsAligned_updateRunsAfterTruncation
    (inside : truncateAt < (runs.map TextRun.len).sum) :
    RunsAligned runs (updateRunsAfterTruncation suffix truncateAt runs) truncateAt suffix := by
  rcases exists_updateRunsAfterTruncation suffix inside with
    ⟨front, run, back, within, rfl, sum, inCut, updated⟩
  rw [updated]
  constructor
  · rw [List.map_append, List.sum_append, List.map_singleton, List.sum_singleton, ← sum,
      Nat.add_assoc]
  · intro ix kept
    rw [styleAt_append, styleAt_append]
    split
    next => rfl
    next past =>
      have inRun : ix - (front.map TextRun.len).sum < within := by omega
      rw [styleAt, if_pos (Nat.lt_add_right _ inRun), styleAt, if_pos (inRun.trans inCut)]
  · intro ix last found isEmpty
    rcases lt_trichotomy ix front.length with inFront | rfl | past
    · rw [List.getElem?_append_left inFront] at found ⊢
      exact Or.inl ⟨last, found, isEmpty⟩
    · rw [List.getElem?_concat_length] at found
      rcases Option.some.inj found with rfl
      right
      rw [List.length_append, List.length_singleton]
      exact ⟨(Nat.add_eq_zero_iff.mp isEmpty).2, rfl⟩
    · rw [List.getElem?_eq_none] at found
      · cases found
      · rw [List.length_append, List.length_singleton]
        exact past

end Runs

/-! ## The text -/

theorem sliceTo_append (kept rest : List Char) :
    sliceTo (kept ++ rest) (String.utf8Len kept) = kept := by
  induction kept with
  | nil =>
      cases rest with
      | nil => rfl
      | cons c rest => exact if_pos c.utf8Size_pos
  | cons c kept ih =>
      rw [List.cons_append, sliceTo, String.utf8Len_cons, if_neg (by omega), Nat.add_sub_cancel, ih]

/-- The longest of the fronts that are shorter than the text. -/
structure LongestBefore (room : List Char → Prop) (text kept : List Char) : Prop where
  isPrefix : kept <+: text
  fits : room kept
  longest : ∀ front, front <+: text → front ≠ text → room front → front.length ≤ kept.length

/-- The text itself comes next. -/
theorem LongestBefore.next {room : List Char → Prop} {text kept : List Char}
    (longest : LongestBefore room text kept) :
    room text ∧ LongestFront room text text ∨ ¬ room text ∧ LongestFront room text kept := by
  by_cases fits : room text
  · exact Or.inl ⟨fits, List.prefix_rfl, fits, fun front isFront _ => isFront.length_le⟩
  · refine Or.inr ⟨fits, longest.isPrefix, longest.fits, ?_⟩
    intro front isFront roomFront
    apply longest.longest front isFront _ roomFront
    rintro rfl
    exact fits roomFront

/-- What there is no room for makes nothing longer. -/
theorem LongestFront.append {room : List Char → Prop} {text kept : List Char}
    (longest : LongestFront room text kept) (more : List Char)
    (full : ∀ front, front <+: text ++ more → text.length < front.length → ¬ room front) :
    LongestFront room (text ++ more) kept where
  isPrefix := longest.isPrefix.trans (List.prefix_append _ _)
  fits := longest.fits
  longest := by
    intro front isFront roomFront
    apply longest.longest front _ roomFront
    apply List.prefix_of_prefix_length_le isFront (List.prefix_append _ _)
    by_contra longer
    exact full front isFront (not_le.mp longer) roomFront

theorem LongestFront.before {room : List Char → Prop} {text kept : List Char} {c : Char}
    (longest : LongestFront room text kept) : LongestBefore room (text ++ [c]) kept where
  isPrefix := longest.isPrefix.trans (List.prefix_append _ _)
  fits := longest.fits
  longest := by
    intro front isFront differs roomFront
    rcases List.prefix_concat_iff.mp (by simpa using isFront) with rfl | isShorter
    · exact absurd (by simp) differs
    · exact longest.longest front isShorter roomFront

namespace LineWrapper

variable {platform : PlatformTextSystem K} {font : FontIdWithSize K}

section

variable [Field K]

theorem widthForChars_eq (self : LineWrapper platform font) (width : K) (text : List Char) :
    (widthForChars width self text).1 = width + platform.widthForChars font text := by
  induction text generalizing self width with
  | nil => simp [widthForChars, PlatformTextSystem.widthForChars]
  | cons c text ih =>
      rw [widthForChars]
      dsimp only
      rw [ih, widthForChar_fst, PlatformTextSystem.widthForChars,
        PlatformTextSystem.widthForChars, List.map_cons, List.sum_cons, add_assoc]

theorem widthForChars_append (front back : List Char) :
    platform.widthForChars font (front ++ back) =
      platform.widthForChars font front + platform.widthForChars font back := by
  rw [PlatformTextSystem.widthForChars, List.map_append, List.sum_append]
  rfl

variable [LinearOrder K] [IsStrictOrderedRing K]

theorem widthForChars_nonneg (nonneg : ∀ c, 0 ≤ platform.computeWidthForChar font c)
    (text : List Char) : 0 ≤ platform.widthForChars font text := by
  apply List.sum_nonneg
  rintro _ member
  rcases List.mem_map.mp member with ⟨c, _, rfl⟩
  exact nonneg c

theorem widthForChars_mono (nonneg : ∀ c, 0 ≤ platform.computeWidthForChar font c)
    {front text : List Char} (isFront : front <+: text) :
    platform.widthForChars font front ≤ platform.widthForChars font text := by
  rcases isFront with ⟨back, rfl⟩
  rw [widthForChars_append]
  exact le_add_of_nonneg_right (widthForChars_nonneg nonneg back)

end

variable [Field K] [LinearOrder K] [IsStrictOrderedRing K] [FloorRing K]

/-- The front leaves more than the width of the suffix, or is empty. -/
def HasRoom (platform : PlatformTextSystem K) (font : FontIdWithSize K)
    (truncateWidth suffixWidth : K) (front : List Char) : Prop :=
  front = [] ∨ platform.widthForChars font front + suffixWidth < truncateWidth

/-- The loop truncates a text whose whole pixels exceed the width, at the longest front that
there is room for. -/
theorem truncateLoop_spec (nonneg : ∀ c, 0 ≤ platform.computeWidthForChar font c)
    {truncateWidth suffixWidth : K} (suffixNonneg : 0 ≤ suffixWidth) {seen kept : List Char}
    (longest : LongestBefore (HasRoom platform font truncateWidth suffixWidth) seen kept)
    (text : List Char) (self : LineWrapper platform font) :
    let truncated := (truncateLoop truncateWidth suffixWidth self (String.utf8Len seen)
      (platform.widthForChars font seen) (String.utf8Len kept) text).1
    truncated = none ∧
        (text = [] ∨ (⌊platform.widthForChars font (seen ++ text)⌋ : K) ≤ truncateWidth) ∨
      (text ≠ [] ∧ truncateWidth < (⌊platform.widthForChars font (seen ++ text)⌋ : K)) ∧
        ∃ front, LongestFront (HasRoom platform font truncateWidth suffixWidth)
            (seen ++ text) front ∧
          front.length < (seen ++ text).length ∧ truncated = some (String.utf8Len front) := by
  induction text generalizing seen kept self with
  | nil => exact Or.inl ⟨rfl, Or.inl rfl⟩
  | cons c text ih =>
      have chosen : ∃ front, LongestFront (HasRoom platform font truncateWidth suffixWidth)
          seen front ∧
            (if platform.widthForChars font seen + suffixWidth < truncateWidth
              then String.utf8Len seen else String.utf8Len kept) = String.utf8Len front := by
        by_cases fits : platform.widthForChars font seen + suffixWidth < truncateWidth
        · rw [if_pos fits]
          rcases longest.next with ⟨_, isSeen⟩ | ⟨none, _⟩
          · exact ⟨seen, isSeen, rfl⟩
          · exact absurd (Or.inr fits) none
        · rw [if_neg fits]
          rcases longest.next with ⟨isEmpty | room, isSeen⟩ | ⟨_, isKept⟩
          · have keptEmpty := longest.isPrefix
            rw [isEmpty, List.prefix_nil] at keptEmpty
            exact ⟨seen, isSeen, by rw [isEmpty, keptEmpty]⟩
          · exact absurd room fits
          · exact ⟨kept, isKept, rfl⟩
      rcases chosen with ⟨front, isLongest, size⟩
      have nextWidth : platform.widthForChars font seen + platform.computeWidthForChar font c =
          platform.widthForChars font (seen ++ [c]) := by
        rw [widthForChars_append]
        simp [PlatformTextSystem.widthForChars]
      have split : seen ++ c :: text = seen ++ [c] ++ text := by simp
      have grown := widthForChars_mono nonneg (List.prefix_append (seen ++ [c]) text)
      rw [truncateLoop]
      dsimp only
      rw [size, widthForChar_fst, nextWidth, split]
      by_cases exceeds : (⌊platform.widthForChars font (seen ++ [c])⌋ : K) > truncateWidth
      · rw [if_pos exceeds]
        right
        constructor
        · have floors : (⌊platform.widthForChars font (seen ++ [c])⌋ : K) ≤
              ⌊platform.widthForChars font (seen ++ [c] ++ text)⌋ :=
            Int.cast_le.mpr (Int.floor_mono grown)
          exact ⟨List.cons_ne_nil c text, exceeds.trans_le floors⟩
        · refine ⟨front, ?_, ?_, rfl⟩
          · rw [← split]
            apply isLongest.append
            intro other isFront longer room
            rcases room with rfl | room
            · exact Nat.not_lt_zero _ longer
            · have reaches : seen ++ [c] <+: other := by
                apply List.prefix_of_prefix_length_le (List.prefix_append (seen ++ [c]) text)
                · rwa [← split]
                · rw [List.length_append, List.length_singleton]
                  exact longer
              have wide := widthForChars_mono nonneg reaches
              have floorLe := Int.floor_le (platform.widthForChars font (seen ++ [c]))
              linarith
          · have short := isLongest.isPrefix.length_le
            rw [List.length_append, List.length_append, List.length_singleton]
            omega
      · rw [if_neg exceeds]
        have bytes : String.utf8Len seen + c.utf8Size = String.utf8Len (seen ++ [c]) := by
          simp
        have next := ih (isLongest.before (c := c)) (self.widthForChar c).2
        rw [bytes]
        rcases next with ⟨untruncated, fits⟩ | ⟨⟨_, wide⟩, truncated⟩
        · left
          refine ⟨untruncated, Or.inr ?_⟩
          rcases fits with rfl | fits
          · rw [List.append_nil]
            exact not_lt.mp exceeds
          · exact fits
        · exact Or.inr ⟨⟨List.cons_ne_nil c text, wide⟩, truncated⟩

/-- A line that fits stays, and any other is cut at the longest front there is room for. -/
theorem truncateLine_truncates {F D : Type}
    (nonneg : ∀ c, 0 ≤ platform.computeWidthForChar font c) (self : LineWrapper platform font)
    (line : String) (truncateWidth : K) (truncationSuffix : String)
    (runs : List (TextRun F D)) (sum : (runs.map TextRun.len).sum = line.utf8ByteSize) :
    let truncated := (self.truncateLine line truncateWidth truncationSuffix runs).1
    let suffixWidth := platform.widthForChars font truncationSuffix.toList
    let fits := line = "" ∨
      (⌊platform.widthForChars font line.toList⌋ : K) ≤ truncateWidth
    (fits → truncated = (line, runs)) ∧
      (¬ fits → ∃ kept, LongestFront (HasRoom platform font truncateWidth suffixWidth)
          line.toList kept ∧
        truncated.1 = String.ofList kept ++ truncationSuffix ∧
        RunsAligned runs truncated.2 (String.utf8Len kept) truncationSuffix.utf8ByteSize) := by
  dsimp only
  have suffixWidth := widthForChars_eq self 0 truncationSuffix.toList
  rw [zero_add] at suffixWidth
  have atStart : LongestBefore (HasRoom platform font truncateWidth
      (platform.widthForChars font truncationSuffix.toList)) [] [] :=
    ⟨List.prefix_rfl, Or.inl rfl, fun front isFront _ _ => isFront.length_le⟩
  have loops := truncateLoop_spec nonneg (widthForChars_nonneg nonneg truncationSuffix.toList)
    atStart line.toList (widthForChars 0 self truncationSuffix.toList).2
  have start : platform.widthForChars font [] = 0 := rfl
  rw [start, String.utf8Len_nil, List.nil_append] at loops
  have isEmpty : line = "" ↔ line.toList = [] := by simp
  rw [truncateLine, isEmpty]
  dsimp only
  rw [suffixWidth]
  rcases loops with ⟨untruncated, fits⟩ | ⟨⟨nonempty, wide⟩, kept, longest, short, truncated⟩
  · rw [untruncated]
    exact ⟨fun _ => rfl, fun exceeds => absurd fits exceeds⟩
  · rw [truncated]
    have exceeds : ¬ (line.toList = [] ∨
        (⌊platform.widthForChars font line.toList⌋ : K) ≤ truncateWidth) := by
      rintro (empty | fits)
      · exact nonempty empty
      · exact absurd fits (not_le.mpr wide)
    rcases longest.isPrefix with ⟨rest, split⟩
    have sliced : sliceTo line.toList (String.utf8Len kept) = kept := by
      rw [← split, sliceTo_append]
    have size : (String.ofList kept ++ truncationSuffix).utf8ByteSize -
        truncationSuffix.utf8ByteSize = String.utf8Len kept := by
      rw [String.utf8ByteSize_append, String.utf8ByteSize_ofList, Nat.add_sub_cancel]
    have inside : String.utf8Len kept < (runs.map TextRun.len).sum := by
      have nonemptyRest : rest ≠ [] := by
        rintro rfl
        rw [← split, List.append_nil] at short
        exact lt_irrefl _ short
      have restSize := Nat.pos_of_ne_zero (mt String.utf8Len_eq_zero.mp nonemptyRest)
      rw [sum, ← String.ofList_toList (s := line), String.utf8ByteSize_ofList, ← split,
        String.utf8Len_append]
      exact Nat.lt_add_of_pos_right restSize
    refine ⟨fun fits => absurd fits exceeds, fun _ => ⟨kept, longest, ?_, ?_⟩⟩
    · rw [truncatedAt, sliced]
    · rw [truncatedAt, sliced]
      dsimp only
      rw [size]
      exact runsAligned_updateRunsAfterTruncation inside

theorem noop_computeWidthForChar_nonneg (c : Char) :
    0 ≤ (NoopTextSystem.platform : PlatformTextSystem ℚ).computeWidthForChar ⟨0, 10⟩ c := by
  simp only [PlatformTextSystem.computeWidthForChar, NoopTextSystem.platform,
    NoopTextSystem.layoutLine, String.toList_singleton, NoopTextSystem.glyphs]
  split_ifs <;> norm_num

/-- Three characters of width 6 and a suffix as wide, truncated to 15. -/
theorem truncateLine_truncates_three :
    let self : LineWrapper (NoopTextSystem.platform : PlatformTextSystem ℚ) ⟨0, 10⟩ := .new
    let runs : List (TextRun Unit Unit) := [⟨1, (), ()⟩, ⟨2, (), ()⟩]
    let truncated := (self.truncateLine "abc" 15 "…" runs).1
    let suffixWidth : ℚ := PlatformTextSystem.widthForChars NoopTextSystem.platform ⟨0, 10⟩
      "…".toList
    let fits := "abc" = "" ∨ (⌊PlatformTextSystem.widthForChars
      (NoopTextSystem.platform : PlatformTextSystem ℚ) ⟨0, 10⟩ "abc".toList⌋ : ℚ) ≤ 15
    (fits → truncated = ("abc", runs)) ∧
      (¬ fits → ∃ kept, LongestFront (HasRoom NoopTextSystem.platform ⟨0, 10⟩ 15 suffixWidth)
          "abc".toList kept ∧
        truncated.1 = String.ofList kept ++ "…" ∧
        RunsAligned runs truncated.2 (String.utf8Len kept) "…".utf8ByteSize) :=
  truncateLine_truncates noop_computeWidthForChar_nonneg .new "abc" 15 "…"
    [⟨1, (), ()⟩, ⟨2, (), ()⟩] (by decide)

/-- A line that is too wide by less than a pixel stays.  A front that fits just so with the
suffix is not kept.  A suffix that is too wide is the result.  A cut between two runs leaves
an empty run if the suffix is empty. -/
theorem not_truncateLine_longest :
    let platform : PlatformTextSystem ℚ := NoopTextSystem.platform
    let wrapper : LineWrapper platform ⟨0, 10⟩ := .new
    let wider : LineWrapper platform ⟨0, 11⟩ := .new
    let run : TextRun Unit Unit := ⟨1, (), ()⟩
    ((wider.truncateLine "a" 6 "" [run]).1 = ("a", [run]) ∧
        6 < platform.widthForChars ⟨0, 11⟩ "a".toList) ∧
      ((wrapper.truncateLine "abc" 12 "." [run, run, run]).1.1 = "." ∧
        platform.widthForChars ⟨0, 10⟩ "abc".toList > 12 ∧
        platform.widthForChars ⟨0, 10⟩ "a".toList +
          platform.widthForChars ⟨0, 10⟩ ".".toList ≤ 12) ∧
      ((wrapper.truncateLine "abc" 12 "..." [run, run, run]).1.1 = "..." ∧
        platform.widthForChars ⟨0, 10⟩ "...".toList > 12) ∧
      (wrapper.truncateLine "ab" 7 "" [run, run]).1 = ("a", [run, { run with len := 0 }]) := by
  decide +kernel

end LineWrapper

end Gpui
