import Gpui.TextSystem.LineLayoutCache

/-!
# What the cache of laid out lines returns

Every line in the cache is what the platform makes of its key, and every wrapped line
what it makes of its key and the `max_lines` of one of the calls before.
-/

namespace Gpui

open Gpui.Library

variable {K : Type} [Field K] [LinearOrder K]

/-! ## The invariant -/

/-- A line is what the platform makes of its key. -/
def LineOf (platform : PlatformTextSystem K) (key : CacheKey K) (layout : LineLayout K) :
    Prop :=
  layout = platform.lineLayout key.text key.fontSize key.runs key.forceWidth

/-- A wrapped line is what the platform makes of its key and the limit of a call. -/
def WrappedLineOf (platform : PlatformTextSystem K) (calls : List (LineLayoutCall K))
    (key : CacheKey K) (layout : WrappedLineLayout K) : Prop :=
  ∃ maxLines,
    .layoutWrappedLine key.text key.fontSize key.runs key.wrapWidth maxLines ∈ calls ∧
      platform.wrappedLineLayout key.text key.fontSize key.runs key.wrapWidth maxLines =
        some layout

theorem WrappedLineOf.mono {platform : PlatformTextSystem K} {calls : List (LineLayoutCall K)}
    {key : CacheKey K} {layout : WrappedLineLayout K}
    (made : WrappedLineOf platform calls key layout) (call : LineLayoutCall K) :
    WrappedLineOf platform (calls ++ [call]) key layout := by
  rcases made with ⟨maxLines, member, laidOut⟩
  exact ⟨maxLines, List.mem_append_left _ member, laidOut⟩

structure FrameCache.Sound (platform : PlatformTextSystem K) (calls : List (LineLayoutCall K))
    (frame : FrameCache K) : Prop where
  lines : ∀ key layout, frame.lines key = some layout → LineOf platform key layout
  wrappedLines : ∀ key layout, frame.wrappedLines key = some layout →
    WrappedLineOf platform calls key layout

theorem FrameCache.sound_empty (platform : PlatformTextSystem K)
    (calls : List (LineLayoutCall K)) : FrameCache.empty.Sound platform calls where
  lines key layout found := by simp [empty] at found
  wrappedLines key layout found := by simp [empty] at found

theorem FrameCache.Sound.mono {platform : PlatformTextSystem K}
    {calls : List (LineLayoutCall K)} {frame : FrameCache K}
    (sound : frame.Sound platform calls) (call : LineLayoutCall K) :
    frame.Sound platform (calls ++ [call]) where
  lines := sound.lines
  wrappedLines key layout found := (sound.wrappedLines key layout found).mono call

namespace LineLayoutCache

structure Sound (platform : PlatformTextSystem K) (calls : List (LineLayoutCall K))
    (cache : LineLayoutCache K) : Prop where
  previousFrame : cache.previousFrame.Sound platform calls
  currentFrame : cache.currentFrame.Sound platform calls

variable {platform : PlatformTextSystem K} {calls : List (LineLayoutCall K)}
  {cache : LineLayoutCache K}

theorem sound_new : (new : LineLayoutCache K).Sound platform [] where
  previousFrame := FrameCache.sound_empty platform []
  currentFrame := FrameCache.sound_empty platform []

theorem Sound.mono (sound : cache.Sound platform calls) (call : LineLayoutCall K) :
    cache.Sound platform (calls ++ [call]) where
  previousFrame := sound.previousFrame.mono call
  currentFrame := sound.currentFrame.mono call

theorem Sound.truncateLayouts (sound : cache.Sound platform calls) (index : LineLayoutIndex) :
    (cache.truncateLayouts index).Sound platform calls where
  previousFrame := sound.previousFrame
  currentFrame := ⟨sound.currentFrame.lines, sound.currentFrame.wrappedLines⟩

theorem Sound.finishFrame (sound : cache.Sound platform calls) :
    cache.finishFrame.Sound platform calls where
  previousFrame := sound.currentFrame
  currentFrame := FrameCache.sound_empty platform calls

theorem Sound.reuseLayouts (sound : cache.Sound platform calls)
    {range : LineLayoutIndex × LineLayoutIndex} {next : LineLayoutCache K}
    (reuses : cache.reuseLayouts range = some next) : next.Sound platform calls := by
  simp only [LineLayoutCache.reuseLayouts, Option.bind_eq_bind,
    Option.bind_eq_some_iff] at reuses
  rcases reuses with ⟨lines, -, wrappedLines, -, same⟩
  cases same
  rcases PartialMap.foldl_promote_forall lines sound.previousFrame.lines
    sound.currentFrame.lines with ⟨previousLines, currentLines⟩
  rcases PartialMap.foldl_promote_forall wrappedLines sound.previousFrame.wrappedLines
    sound.currentFrame.wrappedLines with ⟨previousWrapped, currentWrapped⟩
  exact ⟨⟨previousLines, previousWrapped⟩, ⟨currentLines, currentWrapped⟩⟩

theorem Sound.insertLine (sound : cache.Sound platform calls) {key : CacheKey K}
    {layout : LineLayout K} (made : LineOf platform key layout) :
    (cache.insertLine key layout).Sound platform calls where
  previousFrame := sound.previousFrame
  currentFrame :=
    ⟨PartialMap.forall_insert sound.currentFrame.lines made, sound.currentFrame.wrappedLines⟩

theorem Sound.insertWrappedLine (sound : cache.Sound platform calls) {key : CacheKey K}
    {layout : WrappedLineLayout K} (made : WrappedLineOf platform calls key layout) :
    (cache.insertWrappedLine key layout).Sound platform calls where
  previousFrame := sound.previousFrame
  currentFrame :=
    ⟨sound.currentFrame.lines, PartialMap.forall_insert sound.currentFrame.wrappedLines made⟩

theorem Sound.removePreviousLine (sound : cache.Sound platform calls) (key : CacheKey K) :
    (cache.removePreviousLine key).Sound platform calls where
  previousFrame :=
    ⟨PartialMap.forall_remove sound.previousFrame.lines key, sound.previousFrame.wrappedLines⟩
  currentFrame := sound.currentFrame

theorem Sound.removePreviousWrappedLine (sound : cache.Sound platform calls)
    (key : CacheKey K) : (cache.removePreviousWrappedLine key).Sound platform calls where
  previousFrame :=
    ⟨sound.previousFrame.lines, PartialMap.forall_remove sound.previousFrame.wrappedLines key⟩
  currentFrame := sound.currentFrame

/-- A call for a line returns what the platform makes of it. -/
theorem Sound.layoutLine (sound : cache.Sound platform calls) (text : String) (fontSize : K)
    (runs : List FontRun) (forceWidth : Option K) :
    (cache.layoutLine platform text fontSize runs forceWidth).1 =
        platform.lineLayout text fontSize runs forceWidth ∧
      (cache.layoutLine platform text fontSize runs forceWidth).2.Sound platform calls := by
  simp only [LineLayoutCache.layoutLine]
  split
  next layout found => exact ⟨sound.currentFrame.lines _ layout found, sound⟩
  next =>
    split
    next layout found =>
      have made := sound.previousFrame.lines _ layout found
      exact ⟨made, (sound.removePreviousLine _).insertLine made⟩
    next => exact ⟨rfl, sound.insertLine rfl⟩

/-- The entry a call for a wrapped line finds. -/
def findWrappedLine (cache : LineLayoutCache K) (key : CacheKey K) :
    Option (WrappedLineLayout K) :=
  (cache.currentFrame.wrappedLines key).or (cache.previousFrame.wrappedLines key)

theorem Sound.findWrappedLine (sound : cache.Sound platform calls) {key : CacheKey K}
    {layout : WrappedLineLayout K} (found : cache.findWrappedLine key = some layout) :
    WrappedLineOf platform calls key layout := by
  rcases Option.or_eq_some_iff.mp found with current | ⟨-, previous⟩
  · exact sound.currentFrame.wrappedLines key layout current
  · exact sound.previousFrame.wrappedLines key layout previous

/-- A call for a wrapped line returns the entry it finds, and otherwise what the platform
makes of the line. -/
theorem Sound.layoutWrappedLine (sound : cache.Sound platform calls) (text : String)
    (fontSize : K) (runs : List FontRun) (wrapWidth : Option K) (maxLines : Option UInt64) :
    ∃ layout next,
      cache.layoutWrappedLine platform text fontSize runs wrapWidth maxLines =
          some (layout, next) ∧
        (cache.findWrappedLine
              { text, fontSize, runs, wrapWidth, forceWidth := none } = some layout ∨
            cache.findWrappedLine
                { text, fontSize, runs, wrapWidth, forceWidth := none } = none ∧
              platform.wrappedLineLayout text fontSize runs wrapWidth maxLines =
                some layout) ∧
          next.Sound platform
            (calls ++ [.layoutWrappedLine text fontSize runs wrapWidth maxLines]) := by
  have later := sound.mono (.layoutWrappedLine text fontSize runs wrapWidth maxLines)
  simp only [LineLayoutCache.layoutWrappedLine, LineLayoutCache.findWrappedLine]
  split
  next layout found => exact ⟨layout, cache, rfl, Or.inl (by simp [found]), later⟩
  next absent =>
    split
    next layout found =>
      exact ⟨layout, _, rfl, Or.inl (by simp [absent, found]),
        (later.removePreviousWrappedLine _).insertWrappedLine
          (later.previousFrame.wrappedLines _ layout found)⟩
    next missing =>
      rcases platform.exists_wrappedLineLayout text fontSize runs wrapWidth with
        ⟨boundaries, -, -, uncached⟩
      obtain ⟨same, kept⟩ := later.layoutLine text fontSize runs none
      have made := uncached maxLines
      have insertable : WrappedLineOf platform
          (calls ++ [.layoutWrappedLine text fontSize runs wrapWidth maxLines])
          { text, fontSize, runs, wrapWidth, forceWidth := none } _ :=
        ⟨maxLines, List.mem_append_right _ List.mem_cons_self, made⟩
      refine ⟨_, _, ?_, Or.inr ⟨by simp [absent, missing], made⟩,
        kept.insertWrappedLine insertable⟩
      simp only [PlatformTextSystem.wrappedLineLayout] at made
      simp only [same]
      cases wrapWidth with
      | none =>
          have unbroken : [] = limitLines maxLines boundaries := by simpa using made
          rw [← unbroken]
          rfl
      | some width =>
          rcases Option.bind_eq_some_iff.mp made with ⟨broken, computed, layout⟩
          have limited : broken = limitLines maxLines boundaries := by simpa using layout
          rw [limited] at computed
          simp only [computed]
          rfl

/-- Every call keeps the invariant. -/
theorem Sound.step (sound : cache.Sound platform calls) {call : LineLayoutCall K}
    {next : LineLayoutCache K} (steps : call.step platform cache = some next) :
    next.Sound platform (calls ++ [call]) := by
  have later := sound.mono call
  cases call with
  | layoutLine text fontSize runs forceWidth =>
      cases steps
      exact (later.layoutLine text fontSize runs forceWidth).2
  | layoutWrappedLine text fontSize runs wrapWidth maxLines =>
      rcases sound.layoutWrappedLine text fontSize runs wrapWidth maxLines with
        ⟨layout, after, returned, -, kept⟩
      simp only [LineLayoutCall.step, returned, Option.map_some, Option.some.injEq] at steps
      exact steps ▸ kept
  | reuseLayouts range => exact later.reuseLayouts steps
  | truncateLayouts index =>
      cases steps
      exact later.truncateLayouts index
  | finishFrame =>
      cases steps
      exact later.finishFrame

theorem Sound.of_run (run : Run (LineLayoutCall.step platform) (fun _ _ => True) new calls cache) :
    cache.Sound platform calls :=
  run.invariant (fun calls cache => cache.Sound platform calls) sound_new
    fun sound _ steps => sound.step steps

/-- The entry found for a wrapped line, if there is one, is broken as often as the limit
of the call leaves the line broken. -/
def BrokenAsOften (platform : PlatformTextSystem K) (cache : LineLayoutCache K) (text : String)
    (fontSize : K) (runs : List FontRun) (wrapWidth : Option K) (maxLines : Option UInt64) :
    Prop :=
  ∀ entry width boundaries,
    cache.findWrappedLine { text, fontSize, runs, wrapWidth, forceWidth := none } = some entry →
    wrapWidth = some width →
    (platform.lineLayout text fontSize runs none).computeWrapBoundaries text.toList width none =
      some boundaries →
    entry.wrapBoundaries.length = (limitLines maxLines boundaries).length

/-- After any calls the cache returns for a line what the platform makes of it, and for a
wrapped line exactly if the entry it finds is broken as often as the call asks for; that is
so where all calls for the wrapped line have the same limit. -/
theorem layout_eq_uncached (platform : PlatformTextSystem K) {calls : List (LineLayoutCall K)}
    {cache : LineLayoutCache K}
    (run : Run (LineLayoutCall.step platform) (fun _ _ => True) new calls cache) :
    (∀ text fontSize runs forceWidth,
      (cache.layoutLine platform text fontSize runs forceWidth).1 =
        platform.lineLayout text fontSize runs forceWidth) ∧
    ∀ text fontSize runs wrapWidth maxLines, ∃ layout next uncached,
      cache.layoutWrappedLine platform text fontSize runs wrapWidth maxLines =
          some (layout, next) ∧
        platform.wrappedLineLayout text fontSize runs wrapWidth maxLines = some uncached ∧
        (layout = uncached ↔
          BrokenAsOften platform cache text fontSize runs wrapWidth maxLines) ∧
        ((∀ other, .layoutWrappedLine text fontSize runs wrapWidth other ∈ calls →
            other = maxLines) → layout = uncached) := by
  have sound := Sound.of_run run
  refine ⟨fun text fontSize runs forceWidth =>
    (sound.layoutLine text fontSize runs forceWidth).1, ?_⟩
  intro text fontSize runs wrapWidth maxLines
  rcases sound.layoutWrappedLine text fontSize runs wrapWidth maxLines with
    ⟨layout, next, returned, source, -⟩
  rcases platform.exists_wrappedLineLayout text fontSize runs wrapWidth with
    ⟨boundaries, unwrapped, unlimited, laidOut⟩
  refine ⟨layout, next, _, returned, laidOut maxLines, ?_⟩
  rcases source with found | ⟨absent, made⟩
  · -- The entry was made by a call with the same arguments but for its limit.
    rcases sound.findWrappedLine found with ⟨other, called, made⟩
    obtain rfl := Option.some.inj (made.symm.trans (laidOut other))
    constructor
    · simp only [WrappedLineLayout.mk.injEq, true_and, and_true, limitLines_eq_iff_length]
      constructor
      · intro sameLength entry width unlimitedBoundaries present wraps computed
        cases found.symm.trans present
        cases (unlimited width wraps).symm.trans computed
        exact sameLength
      · intro brokenAsOften
        cases wrapWidth with
        | none => simp [unwrapped rfl]
        | some width =>
            exact brokenAsOften _ width boundaries found rfl (unlimited width rfl)
    · intro sameLimit
      rw [sameLimit other called]
  · obtain rfl := Option.some.inj (made.symm.trans (laidOut maxLines))
    simp [BrokenAsOften, absent]

/-- A line laid out once more, and wrapped for the first time. -/
theorem layout_eq_uncached_again :
    (((new : LineLayoutCache ℚ).layoutLine NoopTextSystem.platform "a b" 10 [] none).2.layoutLine
        NoopTextSystem.platform "a b" 10 [] none).1 =
      NoopTextSystem.platform.lineLayout "a b" 10 [] none ∧
    ∃ layout next uncached,
      ((new : LineLayoutCache ℚ).layoutLine NoopTextSystem.platform "a b" 10 []
          none).2.layoutWrappedLine NoopTextSystem.platform "a b" 10 [] (some 12) (some 1) =
        some (layout, next) ∧
      NoopTextSystem.platform.wrappedLineLayout "a b" 10 [] (some 12) (some 1) =
        some uncached ∧
      layout = uncached := by
  have run : Run (LineLayoutCall.step (NoopTextSystem.platform : PlatformTextSystem ℚ))
      (fun _ _ => True) new [.layoutLine "a b" 10 [] none] _ := Run.nil.snoc trivial rfl
  have returned := layout_eq_uncached NoopTextSystem.platform run
  refine ⟨returned.1 _ _ _ _, ?_⟩
  obtain ⟨layout, next, uncached, cached, laidOut, -, same⟩ :=
    returned.2 "a b" 10 [] (some 12) (some 1)
  exact ⟨layout, next, uncached, cached, laidOut, same (by simp)⟩

/-- A text that needs two rows, first allowed them and then clamped to one. -/
theorem exists_layout_ne_uncached :
    ¬ ∀ (platform : PlatformTextSystem ℚ) (calls : List (LineLayoutCall ℚ))
        (cache : LineLayoutCache ℚ),
      Run (LineLayoutCall.step platform) (fun _ _ => True) new calls cache →
      ∀ text fontSize runs wrapWidth maxLines,
        (cache.layoutWrappedLine platform text fontSize runs wrapWidth maxLines).map Prod.fst =
          platform.wrappedLineLayout text fontSize runs wrapWidth maxLines := by
  intro transparent
  have stale : ((LineLayoutCall.step NoopTextSystem.platform new
        (.layoutWrappedLine "a b" 10 [] (some 12) (some 2))).bind fun cache =>
          (cache.layoutWrappedLine NoopTextSystem.platform "a b" (10 : ℚ) [] (some 12)
            (some 1)).map Prod.fst) ≠
      NoopTextSystem.platform.wrappedLineLayout "a b" 10 [] (some 12) (some 1) := by
    decide +kernel
  obtain ⟨cache, steps⟩ : ∃ cache, LineLayoutCall.step NoopTextSystem.platform new
      (.layoutWrappedLine "a b" (10 : ℚ) [] (some 12) (some 2)) = some cache := by
    have sound : Sound (NoopTextSystem.platform (K := ℚ)) [] new := sound_new
    rcases sound.layoutWrappedLine "a b" 10 [] (some 12) (some 2) with ⟨layout, cache, returned, -⟩
    exact ⟨cache, by rw [LineLayoutCall.step, returned]; rfl⟩
  rw [steps] at stale
  exact stale (transparent NoopTextSystem.platform _ cache (Run.nil.snoc trivial steps) _ _ _ _ _)

end LineLayoutCache

end Gpui
