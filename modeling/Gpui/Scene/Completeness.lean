import Gpui.Scene.Batches

/-!
# What the batches cover

A step of the iterator cuts a run off the front of one vector that stays below
the head of every other vector.  The iteration ends when the least kind is
exhausted, which leaves behind exactly what the sentinel `u32::MAX` hides: the
primitives of that order, of any kind that sorts after an exhausted one.
-/

namespace Gpui

open Gpui.Library

variable {K : Type}

namespace BatchIterator

theorem advance_eq (accept : Primitive K → Bool) (stop : Nat) (items : List (Primitive K)) :
    advance accept stop items =
      (stop + (items.takeWhile accept).length, items.dropWhile accept) := by
  induction items generalizing stop with
  | nil => rfl
  | cons primitive rest ih =>
      by_cases accepted : accept primitive = true
      · simp only [advance, accepted, if_true, ih, List.takeWhile_cons, List.dropWhile_cons,
          List.length_cons]
        congr 1
        omega
      · simp [advance, accepted]

private theorem take_length_takeWhile (accept : Primitive K → Bool)
    (items : List (Primitive K)) :
    items.take (items.takeWhile accept).length = items.takeWhile accept := by
  calc items.take (items.takeWhile accept).length
      = (items.takeWhile accept ++ items.dropWhile accept).take
          (items.takeWhile accept).length := by rw [List.takeWhile_append_dropWhile]
    _ = items.takeWhile accept := List.take_left

private theorem drop_length_takeWhile (accept : Primitive K → Bool)
    (items : List (Primitive K)) :
    items.drop (items.takeWhile accept).length = items.dropWhile accept := by
  calc items.drop (items.takeWhile accept).length
      = (items.takeWhile accept ++ items.dropWhile accept).drop
          (items.takeWhile accept).length := by rw [List.takeWhile_append_dropWhile]
    _ = items.dropWhile accept := List.drop_left

/-- Every start index points at the peekable rest of its vector. -/
def Aligned (self : BatchIterator K) : Prop :=
  ∀ kind, (self.vectors kind).drop (self.start kind) = self.iter kind

/-- The key a kind competes with. -/
def standing (self : BatchIterator K) (kind : PrimitiveKind) : BatchKey :=
  competitionKey (self.orderAndKind kind)

theorem standing_cons {self : BatchIterator K} {kind : PrimitiveKind} {head : Primitive K}
    {tail : List (Primitive K)} (front : self.iter kind = head :: tail) :
    self.standing kind = toLex (head.order, kind) := by
  simp [standing, competitionKey, orderAndKind, front]

theorem standing_nil {self : BatchIterator K} {kind : PrimitiveKind}
    (exhausted : self.iter kind = []) : self.standing kind = toLex (DrawOrder.MAX, kind) := by
  simp [standing, competitionKey, orderAndKind, exhausted]

theorem standing_ne (self : BatchIterator K) {first second : PrimitiveKind}
    (differ : first ≠ second) : self.standing first ≠ self.standing second := by
  intro same
  exact differ (congrArg (fun key : BatchKey => (ofLex key).2) same)

/-- What the sort in `next` determines: the least kind and its runner-up. -/
theorem exists_first_second (self : BatchIterator K) :
    ∃ first second rest,
      sortByKey competitionKey (PrimitiveKind.all.map self.orderAndKind) =
        self.orderAndKind first :: self.orderAndKind second :: rest ∧
      first ≠ second ∧
      (∀ other, self.standing first ≤ self.standing other) ∧
      ∀ other, other ≠ first → self.standing second ≤ self.standing other := by
  have permuted := sortByKey_perm competitionKey (PrimitiveKind.all.map self.orderAndKind)
  have sorted := sortByKey_pairwise competitionKey (PrimitiveKind.all.map self.orderAndKind)
  have listed : ∀ kind,
      self.orderAndKind kind ∈
        sortByKey competitionKey (PrimitiveKind.all.map self.orderAndKind) := by
    intro kind
    exact mem_sortByKey.mpr (List.mem_map_of_mem (PrimitiveKind.mem_all kind))
  have distinct : (sortByKey competitionKey (PrimitiveKind.all.map self.orderAndKind)).Nodup := by
    refine permuted.nodup_iff.mpr (List.Nodup.map ?_ (by decide))
    exact fun first second same => congrArg Prod.snd same
  have fromKind : ∀ pair ∈ sortByKey competitionKey (PrimitiveKind.all.map self.orderAndKind),
      ∃ kind, pair = self.orderAndKind kind := by
    intro pair member
    obtain ⟨kind, -, rfl⟩ := List.mem_map.mp (mem_sortByKey.mp member)
    exact ⟨kind, rfl⟩
  have count : (sortByKey competitionKey (PrimitiveKind.all.map self.orderAndKind)).length = 8 :=
    permuted.length_eq
  match shape : sortByKey competitionKey (PrimitiveKind.all.map self.orderAndKind) with
  | [] => simp [shape] at count
  | [_] => simp [shape] at count
  | one :: two :: rest =>
      rw [shape] at sorted listed distinct fromKind
      obtain ⟨first, rfl⟩ := fromKind one (by simp)
      obtain ⟨second, rfl⟩ := fromKind two (by simp)
      obtain ⟨aboveFirst, aboveSecond, -⟩ :
          (∀ pair ∈ self.orderAndKind second :: rest,
            competitionKey (self.orderAndKind first) ≤ competitionKey pair) ∧
          (∀ pair ∈ rest, competitionKey (self.orderAndKind second) ≤ competitionKey pair) ∧
          rest.Pairwise fun first second => competitionKey first ≤ competitionKey second := by
        simpa only [List.pairwise_cons] using sorted
      refine ⟨first, second, rest, rfl, ?_, ?_, ?_⟩
      · rintro rfl
        simp at distinct
      · intro other
        rcases List.mem_cons.mp (listed other) with same | later
        · exact le_of_eq (congrArg competitionKey same.symm)
        · exact aboveFirst _ later
      · intro other notFirst
        have isFirst : self.orderAndKind other = self.orderAndKind first → other = first :=
          fun same => congrArg Prod.snd same
        rcases List.mem_cons.mp (listed other) with same | later
        · exact absurd (isFirst same) notFirst
        · rcases List.mem_cons.mp later with same | later
          · exact le_of_eq (congrArg competitionKey same.symm)
          · exact aboveSecond _ later

/-- One step of the iterator: `batch` is a run cut off the front of its kind,
below the head of every other kind, and of one texture if it is a sprite batch. -/
structure Yields (state : BatchIterator K) (batch : PrimitiveBatch K)
    (following : BatchIterator K) (rest : List (Primitive K)) : Prop where
  front : state.iter batch.kind = batch.primitives ++ rest
  nonempty : batch.primitives ≠ []
  iter_eq : following.iter = Function.update state.iter batch.kind rest
  aligned : following.Aligned
  below : ∀ primitive ∈ batch.primitives, ∀ other, other ≠ batch.kind →
    toLex (primitive.order, batch.kind) < state.standing other
  texture : batch.kind.isSprite = true →
    ∀ primitive ∈ batch.primitives, primitive.textureId = batch.textureId

theorem takeBatch_aligned {self : BatchIterator K} (aligned : self.Aligned)
    {kind : PrimitiveKind} {head : Primitive K} {tail : List (Primitive K)}
    (front : self.iter kind = head :: tail) (textureId : Option AtlasTextureId)
    (accept : Primitive K → Bool) :
    (self.takeBatch kind textureId accept).1 =
        { kind, textureId, primitives := head :: tail.takeWhile accept } ∧
      (self.takeBatch kind textureId accept).2.iter =
        Function.update self.iter kind (tail.dropWhile accept) ∧
      (self.takeBatch kind textureId accept).2.Aligned := by
  have dropped := aligned kind
  rw [front] at dropped
  refine ⟨?_, ?_, ?_⟩
  · simp only [takeBatch, advance_eq, front, List.tail_cons, dropped]
    congr 1
    rw [show self.start kind + 1 + (tail.takeWhile accept).length - self.start kind =
      (tail.takeWhile accept).length + 1 by omega, List.take_succ_cons]
    rw [take_length_takeWhile]
  · simp only [takeBatch, advance_eq, front, List.tail_cons]
  · intro other
    by_cases same : other = kind
    · subst same
      simp only [takeBatch, advance_eq, front, List.tail_cons, Function.update_self]
      rw [Nat.add_assoc, ← List.drop_drop, dropped, Nat.add_comm, List.drop_succ_cons]
      exact drop_length_takeWhile accept tail
    · simpa [takeBatch, Function.update_of_ne same] using aligned other

/-- Everything a step of the iterator can do. -/
theorem next_eq_some {self : BatchIterator K} (aligned : self.Aligned)
    {batch : PrimitiveBatch K} {following : BatchIterator K}
    (step : self.next = some (batch, following)) :
    ∃ rest, self.Yields batch following rest := by
  obtain ⟨first, second, others, sorted, differ, least, runnerUp⟩ := self.exists_first_second
  simp only [next, sorted] at step
  cases front : self.iter first with
  | nil => simp [orderAndKind, front] at step
  | cons head tail =>
      have peeked : (self.orderAndKind first).1.isSome = true := by simp [orderAndKind, front]
      have kindEq : (self.orderAndKind first).2 = first := rfl
      have headBelow : ∀ other, other ≠ first →
          toLex (head.order, first) < self.standing other := by
        intro other notFirst
        rw [← standing_cons front]
        exact lt_of_le_of_ne (least other) (self.standing_ne (Ne.symm notFirst))
      simp only [peeked, if_true, kindEq] at step
      -- both arms take a batch; they differ in the texture and what they accept
      obtain ⟨textureId, accept, taken, acceptBelow, acceptTexture⟩ :
          ∃ textureId accept, self.takeBatch first textureId accept = (batch, following) ∧
            (∀ primitive, accept primitive = true →
              toLex (primitive.order, first) < self.standing second) ∧
            (first.isSprite = true → head.textureId = textureId ∧
              ∀ primitive, accept primitive = true → primitive.textureId = textureId) := by
        cases sprite : first.isSprite with
        | true =>
            simp only [sprite, if_true, front, List.head?_cons, Option.bind_some,
              Option.some.injEq] at step
            refine ⟨_, _, step, ?_, fun _ => ⟨rfl, ?_⟩⟩
            · intro primitive accepted
              simp only [Bool.and_eq_true, decide_eq_true_eq] at accepted
              exact accepted.1
            · intro primitive accepted
              simp only [Bool.and_eq_true, decide_eq_true_eq] at accepted
              exact accepted.2
        | false =>
            simp only [sprite, Bool.false_eq_true, if_false, Option.some.injEq] at step
            refine ⟨_, _, step, ?_, by simp⟩
            intro primitive accepted
            exact of_decide_eq_true accepted
      obtain ⟨batchEq, iterEq, nowAligned⟩ := takeBatch_aligned aligned front textureId accept
      rw [taken] at batchEq iterEq nowAligned
      simp only at batchEq iterEq nowAligned
      subst batchEq
      refine ⟨tail.dropWhile accept, ?_, by simp, iterEq, nowAligned, ?_, ?_⟩
      · simp [front]
      · intro primitive member other notFirst
        rcases List.mem_cons.mp member with rfl | member
        · exact headBelow other notFirst
        · have accepted := List.mem_takeWhile_imp member
          exact lt_of_lt_of_le (acceptBelow primitive accepted) (runnerUp other notFirst)
      · intro sprite primitive member
        obtain ⟨headTexture, tailTexture⟩ := acceptTexture sprite
        rcases List.mem_cons.mp member with rfl | member
        · exact headTexture
        · exact tailTexture primitive (List.mem_takeWhile_imp member)

/-- The iteration ends when the least kind is exhausted. -/
theorem next_eq_none {self : BatchIterator K} (ended : self.next = none) :
    ∃ kind, self.iter kind = [] ∧ ∀ other, self.standing kind ≤ self.standing other := by
  obtain ⟨first, second, others, sorted, -, least, -⟩ := self.exists_first_second
  refine ⟨first, ?_, least⟩
  cases front : self.iter first with
  | nil => rfl
  | cons head tail =>
      simp only [next, sorted, orderAndKind, front, List.head?_cons, Option.map_some,
        Option.isSome_some, if_true] at ended
      split at ended <;> simp at ended

theorem Yields.iter_batchKind {self : BatchIterator K} {batch : PrimitiveBatch K}
    {following : BatchIterator K} {rest : List (Primitive K)}
    (yields : self.Yields batch following rest) : following.iter batch.kind = rest := by
  rw [yields.iter_eq, Function.update_self]

theorem Yields.iter_of_ne {self : BatchIterator K} {batch : PrimitiveBatch K}
    {following : BatchIterator K} {rest : List (Primitive K)}
    (yields : self.Yields batch following rest) {other : PrimitiveKind}
    (differ : other ≠ batch.kind) : following.iter other = self.iter other := by
  rw [yields.iter_eq, Function.update_of_ne differ]

/-- Each step leaves a tail of every source. -/
theorem Yields.iter_suffix {self : BatchIterator K} {batch : PrimitiveBatch K}
    {following : BatchIterator K} {rest : List (Primitive K)}
    (yields : self.Yields batch following rest) (kind : PrimitiveKind) :
    following.iter kind <:+ self.iter kind := by
  by_cases same : kind = batch.kind
  · subst same
    rw [yields.iter_batchKind, yields.front]
    exact List.suffix_append _ _
  · rw [yields.iter_of_ne same]

/-! ## Termination -/

/-- The number of primitives not yet emitted. -/
def remaining (self : BatchIterator K) : Nat :=
  (PrimitiveKind.all.map fun kind => (self.iter kind).length).sum

theorem Yields.remaining_lt {self : BatchIterator K} {batch : PrimitiveBatch K}
    {following : BatchIterator K} {rest : List (Primitive K)}
    (yields : self.Yields batch following rest) : following.remaining < self.remaining := by
  refine List.sum_lt_sum _ _ ?_ ⟨batch.kind, PrimitiveKind.mem_all _, ?_⟩
  · intro kind _
    exact (yields.iter_suffix kind).length_le
  · rw [yields.iter_batchKind, yields.front, List.length_append]
    have := List.length_pos_iff.mpr yields.nonempty
    omega

/-- With as much fuel as there are primitives, `collect` reaches the end. -/
theorem exhausts_collect_next {self : BatchIterator K} (aligned : self.Aligned) :
    Exhausts BatchIterator.next self (collect BatchIterator.next (self.remaining + 1) self) := by
  refine exhausts_collect remaining Aligned ?_ aligned (Nat.lt_succ_self _)
  intro state batch following holds step
  obtain ⟨rest, yields⟩ := next_eq_some holds step
  exact ⟨yields.aligned, yields.remaining_lt⟩

/-! ## Coverage -/

/-- What an iterator over a finished scene satisfies at every step. -/
structure Sound (state : BatchIterator K) : Prop where
  aligned : state.Aligned
  kindEq : ∀ kind, ∀ primitive ∈ state.iter kind, primitive.kind = kind
  sorted : ∀ kind, (state.iter kind).Pairwise fun first second => first.order ≤ second.order

theorem Sound.following {self : BatchIterator K} (sound : self.Sound)
    {batch : PrimitiveBatch K} {following : BatchIterator K} {rest : List (Primitive K)}
    (yields : self.Yields batch following rest) : following.Sound where
  aligned := yields.aligned
  kindEq kind primitive member :=
    sound.kindEq kind primitive ((yields.iter_suffix kind).subset member)
  sorted kind := (sound.sorted kind).sublist (yields.iter_suffix kind).sublist

theorem Sound.mem_kind {self : BatchIterator K} (sound : self.Sound)
    {batch : PrimitiveBatch K} {following : BatchIterator K} {rest : List (Primitive K)}
    (yields : self.Yields batch following rest) {primitive : Primitive K}
    (member : primitive ∈ batch.primitives) : primitive.kind = batch.kind :=
  sound.kindEq _ _ (by rw [yields.front]; exact List.mem_append_left _ member)

/-- Nothing a kind still holds sorts below the key it competes with. -/
theorem Sound.standing_le {self : BatchIterator K} (sound : self.Sound) {kind : PrimitiveKind}
    {waiting : Primitive K} (member : waiting ∈ self.iter kind) :
    self.standing kind ≤ waiting.batchKey := by
  have sorted := sound.sorted kind
  have kindEq := sound.kindEq kind waiting member
  cases front : self.iter kind with
  | nil => simp [front] at member
  | cons head tail =>
      rw [front] at member sorted
      rw [standing_cons front, Primitive.batchKey, kindEq, Prod.Lex.le_iff]
      rcases List.mem_cons.mp member with rfl | later
      · exact Or.inr ⟨rfl, le_refl kind⟩
      · rcases lt_or_eq_of_le ((List.pairwise_cons.mp sorted).1 waiting later) with less | same
        · exact Or.inl less
        · exact Or.inr ⟨same, le_refl kind⟩

/-- A step is a step of a merge by `batchKey`. -/
theorem Sound.emits {self : BatchIterator K} (sound : self.Sound) {batch : PrimitiveBatch K}
    {following : BatchIterator K} {rest : List (Primitive K)}
    (yields : self.Yields batch following rest) :
    Emits Primitive.batchKey self.iter batch.kind batch.primitives rest where
  front := yields.front
  nonempty := yields.nonempty
  least := by
    intro primitive member other differ waiting held
    have below := yields.below primitive member other differ
    rw [← sound.mem_kind yields member] at below
    exact le_of_lt (lt_of_lt_of_le below (sound.standing_le held))

/-- No primitive is stored with the sentinel order, shadows apart. -/
def Visible (vector : PrimitiveKind → List (Primitive K)) : Prop :=
  ∀ kind, kind ≠ .shadow → ∀ primitive ∈ vector kind, primitive.order ≠ DrawOrder.MAX

/-- When nothing hides behind the sentinel, the end of the iteration is the end
of every vector. -/
theorem Visible.iter_eq_nil {self : BatchIterator K} (visible : Visible self.iter)
    (ended : self.next = none) (kind : PrimitiveKind) : self.iter kind = [] := by
  obtain ⟨least, exhausted, below⟩ := next_eq_none ended
  cases front : self.iter kind with
  | nil => rfl
  | cons head tail =>
      exfalso
      have headMem : head ∈ self.iter kind := by simp [front]
      have differ : least ≠ kind := by
        rintro rfl
        simp [exhausted] at front
      have standingBelow := below kind
      rw [standing_nil exhausted, standing_cons front, Prod.Lex.le_iff] at standingBelow
      rcases standingBelow with above | ⟨same, kindLe⟩
      · exact absurd above (not_lt.mpr (DrawOrder.le_max head.order))
      · have notShadow : kind ≠ .shadow := by
          rintro rfl
          exact differ (le_antisymm kindLe (PrimitiveKind.shadow_le least))
        exact visible kind notShadow head headMem same.symm

theorem merges_of_exhausts {self : BatchIterator K} {batches : List (PrimitiveBatch K)}
    (exhausts : Exhausts BatchIterator.next self batches) : self.Sound →
      Visible self.iter → Merges Primitive.batchKey self.iter
        (batches.map fun batch => (batch.kind, batch.primitives)) := by
  induction exhausts with
  | done ended => exact fun _ visible => .done (visible.iter_eq_nil ended)
  | @yield self following batch batches step _ ih =>
      intro sound visible
      obtain ⟨rest, yields⟩ := next_eq_some sound.aligned step
      refine .emit (sound.emits yields) ?_
      rw [← yields.iter_eq]
      refine ih (sound.following yields) ?_
      intro kind notShadow primitive member
      exact visible kind notShadow primitive ((yields.iter_suffix kind).subset member)

/-- Shadows apart, no batch holds a primitive of the sentinel order. -/
theorem Yields.order_ne_max {self : BatchIterator K} {batch : PrimitiveBatch K}
    {following : BatchIterator K} {rest : List (Primitive K)}
    (yields : self.Yields batch following rest) (notShadow : batch.kind ≠ .shadow)
    {primitive : Primitive K} (member : primitive ∈ batch.primitives) :
    primitive.order ≠ DrawOrder.MAX := by
  intro sentinel
  have below := yields.below primitive member .shadow (Ne.symm notShadow)
  rw [Prod.Lex.lt_iff] at below
  rcases below with above | ⟨-, kindLt⟩
  · rw [ofLex_toLex, sentinel] at above
    exact absurd above (not_lt.mpr (DrawOrder.le_max _))
  · exact absurd kindLt (not_lt.mpr (PrimitiveKind.shadow_le batch.kind))

end BatchIterator

/-! ## Finished scenes -/

namespace Scene

/-- The batches emit every vector of a scene once, slice after slice, by
increasing order and kind, and each sprite batch has a single texture. -/
structure CoveredBy (scene : Scene K) (batches : List (PrimitiveBatch K)) : Prop where
  slices : ∀ kind,
    ((batches.filter fun batch => batch.kind = kind).flatMap PrimitiveBatch.primitives) =
      scene.vector kind
  ordered : (batches.flatMap PrimitiveBatch.primitives).Pairwise fun first second =>
    first.batchKey ≤ second.batchKey
  singleTexture : ∀ batch ∈ batches, batch.kind.isSprite = true →
    ∀ primitive ∈ batch.primitives, primitive.textureId = batch.textureId

theorem finish_batchIterator_sound (self : Scene K) : self.finish.batchIterator.Sound where
  aligned _ := rfl
  kindEq _ _ member := kind_of_mem_vector member
  sorted kind := (finish_vector self kind).2

/-- `batches` runs the iterator of a finished scene to its end. -/
theorem exhausts_batches (self : Scene K) :
    Exhausts BatchIterator.next self.finish.batchIterator self.finish.batches :=
  BatchIterator.exhausts_collect_next (finish_batchIterator_sound self).aligned

theorem finish_visible {self : Scene K} :
    BatchIterator.Visible self.finish.vector ↔ BatchIterator.Visible self.vector := by
  simp only [BatchIterator.Visible, finish_mem_vector]

theorem finish_merges {self : Scene K} (visible : BatchIterator.Visible self.vector) :
    Merges Primitive.batchKey self.finish.vector
      (self.finish.batches.map fun batch => (batch.kind, batch.primitives)) :=
  BatchIterator.merges_of_exhausts (exhausts_batches self) (finish_batchIterator_sound self)
    (finish_visible.mpr visible)

/-- What holds of every primitive in a batch of a finished scene, whether or not
the batches cover it. -/
theorem mem_finish_batches {self : Scene K} {batch : PrimitiveBatch K}
    (member : batch ∈ self.finish.batches) : ∀ primitive ∈ batch.primitives,
      primitive.kind = batch.kind ∧
      (batch.kind.isSprite = true → primitive.textureId = batch.textureId) ∧
      (batch.kind ≠ .shadow → primitive.order ≠ DrawOrder.MAX) := by
  refine (exhausts_batches self).forall_mem BatchIterator.Sound
    (fun batch => ∀ primitive ∈ batch.primitives, primitive.kind = batch.kind ∧
      (batch.kind.isSprite = true → primitive.textureId = batch.textureId) ∧
      (batch.kind ≠ .shadow → primitive.order ≠ DrawOrder.MAX))
    ?_ (finish_batchIterator_sound self) batch member
  intro state batch following sound step
  obtain ⟨rest, yields⟩ := BatchIterator.next_eq_some sound.aligned step
  refine ⟨sound.following yields, fun primitive held => ⟨sound.mem_kind yields held, ?_, ?_⟩⟩
  · exact fun sprite => yields.texture sprite primitive held
  · exact fun notShadow => yields.order_ne_max notShadow held

/-- The batches of a finished scene cover it exactly when, shadows apart,
nothing was stored with the sentinel order. -/
theorem finish_coveredBy_iff (self : Scene K) :
    self.finish.CoveredBy self.finish.batches ↔ BatchIterator.Visible self.vector := by
  constructor
  · intro covered kind notShadow primitive member
    rw [← finish_mem_vector, ← covered.slices kind] at member
    obtain ⟨batch, batchMem, held⟩ := List.mem_flatMap.mp member
    obtain ⟨emitted, kindEq⟩ := List.mem_filter.mp batchMem
    have kindEq : batch.kind = kind := of_decide_eq_true kindEq
    exact (mem_finish_batches emitted primitive held).2.2 (kindEq ▸ notShadow)
  · intro visible
    have merges := finish_merges visible
    refine ⟨?_, ?_, fun batch member sprite primitive held =>
      (mem_finish_batches member primitive held).2.1 sprite⟩
    · intro kind
      rw [← merges.runsOf_eq kind, runsOf, List.filter_map, List.flatMap_map]
      rfl
    · have sorted := merges.sorted ?_
      · rwa [merged, List.flatMap_map] at sorted
      · intro kind
        refine (finish_vector self kind).2.imp_of_mem ?_
        intro first second firstMem secondMem below
        rw [Primitive.batchKey, Primitive.batchKey, kind_of_mem_vector firstMem,
          kind_of_mem_vector secondMem, Prod.Lex.le_iff]
        exact (lt_or_eq_of_le below).imp id fun same => ⟨same, le_refl kind⟩

end Scene

end Gpui
