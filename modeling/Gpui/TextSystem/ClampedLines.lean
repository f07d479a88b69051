import Gpui.TextSystem.ShapedRuns
import Gpui.TextSystem.TextMeasure

/-!
# The lines a text is shaped into

The lines are the ones of the text, and every byte keeps its style.  The clamp limits the
wraps of all lines together, but not how many lines there are: several lines are no more
rows than the clamp allows only where they would be as few without it.
-/

namespace Gpui

open Library

section

variable {K F D : Type}

/-- `text.split('\n')`. -/
def splitLines (text : String) : List String :=
  (text.toList.splitOn '\n').map String.ofList

/-- The texts of the lines, with newlines between them. -/
def joinLines (shaped : List (WrappedLine K D)) : List Char :=
  ['\n'].intercalate (shaped.map fun line => line.text.toList)

/-- The rows of all lines. -/
def totalVisualLines (shaped : List (WrappedLine K D)) : Nat :=
  (shaped.map fun line => line.layout.wrapBoundaries.length + 1).sum

theorem totalVisualLines_eq (shaped : List (WrappedLine K D)) :
    totalVisualLines shaped =
      shaped.length + (shaped.map fun line => line.layout.wrapBoundaries.length).sum := by
  rw [totalVisualLines, List.sum_map_add, List.map_const', List.sum_replicate, smul_eq_mul, mul_one,
    Nat.add_comm]

theorem splitLines_ne_nil (text : String) : splitLines text ≠ [] := by
  rw [splitLines, Ne, List.map_eq_nil_iff]
  exact List.splitOn_ne_nil '\n' text.toList

theorem joinLines_eq {text : String} {shaped : List (WrappedLine K D)}
    (texts : shaped.map (fun line => line.text) = splitLines text) :
    joinLines shaped = text.toList := by
  have characters : shaped.map (fun line => line.text.toList) = text.toList.splitOn '\n' := by
    calc shaped.map (fun line => line.text.toList)
        = (shaped.map fun line => line.text).map String.toList := by
          rw [List.map_map]
          rfl
      _ = (text.toList.splitOn '\n').map (String.toList ∘ String.ofList) := by
          rw [texts, splitLines, List.map_map]
      _ = text.toList.splitOn '\n' := by
          have same : String.toList ∘ String.ofList = id := by
            funext characters
            exact String.toList_ofList
          rw [same, List.map_id]
  rw [joinLines, characters, List.intercalate_splitOn]

/-- Lines, and a newline between each and the next. -/
theorem utf8Len_intercalate {lines : List (List Char)} (nonempty : lines ≠ []) :
    String.utf8Len (['\n'].intercalate lines) + 1 =
      (lines.map fun line => String.utf8Len line + 1).sum := by
  induction lines with
  | nil => exact absurd rfl nonempty
  | cons line lines ih =>
      by_cases last : lines = []
      · subst lines
        simp only [List.intercalate_singleton, List.map_cons, List.map_nil, List.sum_cons,
          List.sum_nil, Nat.add_zero]
      · rw [List.intercalate_cons_of_ne_nil last, List.map_cons, List.sum_cons, ← ih last,
          String.utf8Len_append, String.utf8Len_append]
        have newline : String.utf8Len ['\n'] = 1 := rfl
        omega

theorem utf8ByteSize_splitLines (text : String) :
    text.utf8ByteSize + 1 =
      ((splitLines text).map fun line => line.utf8ByteSize + 1).sum := by
  have bytes : text.utf8ByteSize = String.utf8Len text.toList := by
    rw [← String.utf8ByteSize_ofList, String.ofList_toList]
  have whole := utf8Len_intercalate (List.splitOn_ne_nil (a := '\n') text.toList)
  rw [List.intercalate_splitOn] at whole
  rw [bytes, whole, splitLines, List.map_map]
  apply congrArg List.sum
  apply List.map_congr_left
  intro line member
  exact congrArg (· + 1) (String.utf8ByteSize_ofList line).symm

/-- Styles of all the bytes of lines are styles of all the bytes of each. -/
theorem length_lineStyles {bytes : List (F × D)} {lines : List String}
    (whole : lines = [] ∨
      bytes.length + 1 = (lines.map fun line => line.utf8ByteSize + 1).sum) :
    List.Forall₂ (fun line lineText => line.length = lineText.utf8ByteSize)
      (lineStyles bytes lines) lines := by
  induction lines generalizing bytes with
  | nil => exact List.Forall₂.nil
  | cons lineText lines ih =>
      rcases whole with empty | whole
      · cases empty
      · rw [List.map_cons, List.sum_cons] at whole
        apply List.Forall₂.cons
        · rw [List.length_take]
          omega
        · apply ih
          cases lines with
          | nil => exact Or.inl rfl
          | cons next others =>
              right
              rw [List.map_cons, List.sum_cons] at whole ⊢
              rw [List.length_drop]
              omega

end

/-! ## Lengths that fit -/

/-- Words are never more than the numbers they are made from. -/
theorem sum_words_eq_iff (lengths : List Nat) :
    (lengths.map fun len => (UInt32.ofNat len).toNat).sum = lengths.sum ↔
      ∀ len ∈ lengths, len < 2 ^ 32 := by
  have atMost : ∀ len : Nat, (UInt32.ofNat len).toNat ≤ len := by
    intro len
    rw [UInt32.toNat_ofNat']
    exact Nat.mod_le _ _
  have exact_iff : ∀ len : Nat, (UInt32.ofNat len).toNat = len ↔ len < 2 ^ 32 := by
    intro len
    rw [UInt32.toNat_ofNat']
    constructor
    · intro same
      rw [← same]
      exact Nat.mod_lt _ (Nat.two_pow_pos 32)
    · exact Nat.mod_eq_of_lt
  induction lengths with
  | nil => simp
  | cons len lengths ih =>
      have first := atMost len
      have others : (lengths.map fun len => (UInt32.ofNat len).toNat).sum ≤ lengths.sum := by
        have each := List.sum_le_sum (l := lengths) (f := fun len => (UInt32.ofNat len).toNat)
          (g := id) fun len _ => atMost len
        rwa [List.map_id] at each
      rw [List.map_cons, List.sum_cons, List.sum_cons, List.forall_mem_cons,
        ← exact_iff]
      constructor
      · intro whole
        exact ⟨by omega, ih.mp (by omega)⟩
      · rintro ⟨firstFits, othersFit⟩
        rw [firstFits, ih.mpr othersFit]

section

variable {F D : Type} [DecidableEq D]

/-- The decoration runs say which bytes they decorate unless one is too long for its word. -/
theorem lineDecorationRuns_lengths (bytes : List (F × D)) :
    ((lineDecorationRuns bytes).map fun run => run.len.toNat).sum = bytes.length ↔
      ∀ stretch ∈ stretchesOf (bytes.map Prod.snd), stretch.1 < 2 ^ 32 := by
  have lengths : (lineDecorationRuns bytes).map (fun run => run.len.toNat) =
      ((stretchesOf (bytes.map Prod.snd)).map Prod.fst).map
        fun len => (UInt32.ofNat len).toNat := by
    rw [lineDecorationRuns, decorationRunsOf, List.map_map, List.map_map]
    rfl
  have total : bytes.length = ((stretchesOf (bytes.map Prod.snd)).map Prod.fst).sum := by
    rw [sum_stretchesOf, List.length_map]
  rw [lengths, total, sum_words_eq_iff]
  simp only [List.mem_map, forall_exists_index, and_imp, forall_apply_eq_imp_iff₂]

theorem lineDecorationRuns_bytes {bytes : List (F × D)}
    (fits : ∀ stretch ∈ stretchesOf (bytes.map Prod.snd), stretch.1 < 2 ^ 32) :
    (lineDecorationRuns bytes).flatMap (fun run => List.replicate run.len.toNat run.decoration) =
      bytes.map Prod.snd := by
  calc (lineDecorationRuns bytes).flatMap
        (fun run => List.replicate run.len.toNat run.decoration)
      = (stretchesOf (bytes.map Prod.snd)).flatMap fun stretch =>
          List.replicate (UInt32.ofNat stretch.1).toNat stretch.2 := by
        rw [lineDecorationRuns, decorationRunsOf, List.flatMap_map]
    _ = expandStretches (stretchesOf (bytes.map Prod.snd)) := by
        apply List.flatMap_congr
        intro stretch member
        rw [UInt32.toNat_ofNat_of_lt' (fits stretch member)]
    _ = bytes.map Prod.snd := expandStretches_stretchesOf _

theorem lineFontRuns_lengths (resolveFont : F → FontId) (bytes : List (F × D)) :
    ((lineFontRuns resolveFont bytes).map fun run => run.len).sum = bytes.length := by
  have lengths : (lineFontRuns resolveFont bytes).map (fun run => run.len) =
      (stretchesOf (bytes.map (resolveStyle resolveFont))).map Prod.fst := by
    rw [lineFontRuns, fontRunsOf, List.map_map]
    rfl
  rw [lengths, sum_stretchesOf, List.length_map]

theorem lineFontRuns_bytes (resolveFont : F → FontId) (bytes : List (F × D)) :
    (lineFontRuns resolveFont bytes).flatMap (fun run => List.replicate run.len run.fontId) =
      bytes.map fun style => resolveFont style.1 := by
  have fonts := congrArg (List.map Prod.fst)
    (expandStretches_stretchesOf (bytes.map (resolveStyle resolveFont)))
  rw [expandStretches, List.map_flatMap, List.map_map] at fonts
  rw [lineFontRuns, fontRunsOf, List.flatMap_map]
  simp only [List.map_replicate] at fonts
  exact fonts

end

namespace TextSystem

variable {K F D : Type} [Field K] [LinearOrder K]

/-- The runs of a line have the length of the line, and every byte has its style. -/
structure LineFaithful (system : TextSystem K F) (fontSize : K) (wrapWidth : Option K)
    (line : WrappedLine K D) (bytes : List (F × D)) : Prop where
  decoration_lengths :
    (line.decorationRuns.map fun run => run.len.toNat).sum = line.text.utf8ByteSize
  decoration_bytes :
    line.decorationRuns.flatMap (fun run => List.replicate run.len.toNat run.decoration) =
      bytes.map Prod.snd
  fonts : ∃ fontRuns maxLines,
    system.platform.wrappedLineLayout line.text fontSize fontRuns wrapWidth maxLines =
        some line.layout ∧
      (fontRuns.map fun run => run.len).sum = line.text.utf8ByteSize ∧
      fontRuns.flatMap (fun run => List.replicate run.len run.fontId) =
        bytes.map fun style => system.resolveFont style.1

/-- The lines are the ones of the text, in the styles of the runs and within the clamp. -/
structure ShapesFaithfully (system : TextSystem K F) (text : String) (fontSize : K)
    (runs : List (TextRun F D)) (wrapWidth : Option K) (lineClamp : Option UInt64)
    (shaped : List (WrappedLine K D)) : Prop where
  line_end : ∃ rest, joinLines shaped ++ rest = text.toList ∧
    (rest = [] ∨ rest.head? = some '\n')
  unclamped : lineClamp = none → joinLines shaped = text.toList
  lines : List.Forall₂ (system.LineFaithful fontSize wrapWidth) shaped
    (lineStyles (styles runs) (shaped.map fun line => line.text))
  clamped : ∀ clamp, lineClamp = some clamp → 1 ≤ clamp →
    totalVisualLines shaped ≤ clamp.toNat

variable [DecidableEq D]

theorem ShapedAs.faithful_iff {self : TextSystem K F} {fontSize : K} {wrapWidth : Option K}
    {line : WrappedLine K D} {bytes : List (F × D)}
    (shapedAs : self.ShapedAs fontSize wrapWidth line bytes)
    (covered : bytes.length = line.text.utf8ByteSize) :
    self.LineFaithful fontSize wrapWidth line bytes ↔
      ∀ stretch ∈ stretchesOf (bytes.map Prod.snd), stretch.1 < 2 ^ 32 := by
  rcases shapedAs with ⟨decorationRuns, maxLines, laidOut⟩
  constructor
  · intro faithful
    have lengths := faithful.decoration_lengths
    rw [decorationRuns, ← covered] at lengths
    exact (lineDecorationRuns_lengths bytes).mp lengths
  · intro fits
    constructor
    · rw [decorationRuns, ← covered]
      exact (lineDecorationRuns_lengths bytes).mpr fits
    · rw [decorationRuns]
      exact lineDecorationRuns_bytes fits
    · refine ⟨_, maxLines, laidOut, ?_, lineFontRuns_bytes self.resolveFont bytes⟩
      rw [← covered]
      exact lineFontRuns_lengths self.resolveFont bytes

theorem forall_faithful_iff {self : TextSystem K F} {fontSize : K} {wrapWidth : Option K}
    {shaped : List (WrappedLine K D)} {bytes : List (List (F × D))}
    (each : List.Forall₂ (self.ShapedAs fontSize wrapWidth) shaped bytes)
    (covered : List.Forall₂ (fun line lineText => line.length = lineText.utf8ByteSize) bytes
      (shaped.map fun line => line.text)) :
    List.Forall₂ (self.LineFaithful fontSize wrapWidth) shaped bytes ↔
      ∀ line ∈ bytes, ∀ stretch ∈ stretchesOf (line.map Prod.snd), stretch.1 < 2 ^ 32 := by
  induction each with
  | nil => simp
  | cons shapedAs each ih =>
      cases covered with
      | cons first others =>
          rw [List.forall₂_cons, List.forall_mem_cons, ih others, shapedAs.faithful_iff first]

/-- A limit of all wraps and of the lines. -/
theorem clamped_iff {clamp lines unlimited wraps : Nat} (positive : 1 ≤ clamp)
    (nonempty : 1 ≤ lines) (limited : wraps = min unlimited (clamp - 1)) :
    lines + wraps ≤ clamp ↔ lines = 1 ∨ lines + unlimited ≤ clamp := by
  omega

open MeasuredLayout (noopSystem)

end TextSystem

end Gpui
