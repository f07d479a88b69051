import Gpui.BoundsTree.Insert

/-!
# Draw orders of a sequence of insertions

The specification of the bounds tree is the linear scan used by its randomized
test: the order of a rectangle is one more than the largest order of an earlier
rectangle that intersects it.
-/

namespace Gpui.BoundsTree

variable {K : Type} [Field K] [LinearOrder K]

/-- The order of an earlier rectangle, if it intersects `bounds`. -/
def overlapOrder (bounds : Bounds K) (entry : Entry K) : Option Nat :=
  if entry.1.intersects bounds then some entry.2.toNat else none

/-- The order a linear scan over the earlier rectangles computes. -/
def expectedOrdering (earlier : List (Entry K)) (bounds : Bounds K) : Nat :=
  ((earlier.filterMap (overlapOrder bounds)).max?.getD 0) + 1

theorem overlapMax_toNat (bounds : Bounds K) (entries : List (Entry K)) :
    (overlapMax bounds entries).toNat =
      (entries.filterMap (overlapOrder bounds)).max?.getD 0 := by
  induction entries with
  | nil => rfl
  | cons entry entries ih =>
      by_cases overlap : entry.1.intersects bounds = true
      · have here : overlapOrder bounds entry = some entry.2.toNat := by
          simp [overlapOrder, overlap]
        rw [List.filterMap_cons_some here, List.max?_cons]
        simp only [overlapMax, overlap, if_true]
        rw [UInt32.toNat_max, ih]
        cases (List.filterMap (overlapOrder bounds) entries).max? with
        | none => simp
        | some largest => simp
      · have here : overlapOrder bounds entry = none := by
          simp [overlapOrder, overlap]
        rw [List.filterMap_cons_none here]
        simpa only [overlapMax, overlap, Bool.false_eq_true, if_false] using ih

/-- Orders never exceed the number of rectangles inserted so far. -/
def Bounded (entries : List (Entry K)) : Prop :=
  ∀ entry ∈ entries, entry.2.toNat ≤ entries.length

theorem overlapMax_toNat_le {entries : List (Entry K)} (bounded : Bounded entries)
    (bounds : Bounds K) : (overlapMax bounds entries).toNat ≤ entries.length := by
  have below : ∀ {rest : List (Entry K)}, rest ⊆ entries →
      (overlapMax bounds rest).toNat ≤ entries.length := by
    intro rest
    induction rest with
    | nil => exact fun _ => Nat.zero_le _
    | cons entry rest ih =>
        intro included
        have here := bounded entry (included List.mem_cons_self)
        have tail := ih fun other member => included (List.mem_cons_of_mem _ member)
        simp only [overlapMax]
        split
        · rw [UInt32.toNat_max]
          exact max_le here tail
        · exact tail
  exact below (List.Subset.refl _)

/-- Without wrapping, an insertion returns the order of the linear scan. -/
theorem insert_expectedOrdering {tree : BoundsTree K} {entries : List (Entry K)}
    (represents : Represents tree entries) (bounded : Bounded entries)
    (few : entries.length < 2 ^ 32 - 1) (newBounds : Bounds K) :
    ∃ order tree', insert tree newBounds = some (order, tree') ∧
      order.toNat = expectedOrdering entries newBounds ∧
      Represents tree' (entries ++ [(newBounds, order)]) ∧
      Bounded (entries ++ [(newBounds, order)]) := by
  obtain ⟨tree', inserted, represents'⟩ := insert_spec represents newBounds
  have atMost := overlapMax_toNat_le bounded newBounds
  have order_eq : (overlapMax newBounds entries + 1).toNat =
      (overlapMax newBounds entries).toNat + 1 :=
    Library.toNat_succ_of_lt (by omega)
  refine ⟨_, tree', inserted, ?_, represents', ?_⟩
  · rw [order_eq, overlapMax_toNat]
    rfl
  · intro entry member
    rcases List.mem_append.mp member with member | member
    · have earlier := bounded entry member
      simp only [List.length_append, List.length_singleton]
      omega
    · obtain rfl := List.mem_singleton.mp member
      simp only [List.length_append, List.length_singleton, order_eq]
      omega

/-- A later rectangle that overlaps an earlier one has the larger order. -/
def Rising (first second : Entry K) : Prop :=
  first.1.intersects second.1 = true → first.2 < second.2

/-- The entries of a tree none of whose orders has wrapped. -/
structure Ranked (tree : BoundsTree K) (entries : List (Entry K)) : Prop where
  represents : Represents tree entries
  bounded : Bounded entries
  rising : entries.Pairwise Rising

theorem ranked_empty : Ranked (empty : BoundsTree K) [] :=
  ⟨represents_empty, by simp [Bounded], List.Pairwise.nil⟩

theorem Ranked.insert {tree : BoundsTree K} {entries : List (Entry K)}
    (ranked : Ranked tree entries) (few : entries.length < 2 ^ 32 - 1) (newBounds : Bounds K) :
    ∃ order tree', tree.insert newBounds = some (order, tree') ∧
      Ranked tree' (entries ++ [(newBounds, order)]) := by
  obtain ⟨order, tree', inserted, order_eq, represents, bounded⟩ :=
    insert_expectedOrdering ranked.represents ranked.bounded few newBounds
  refine ⟨order, tree', inserted, represents, bounded, ?_⟩
  refine List.pairwise_append.mpr ⟨ranked.rising, List.pairwise_singleton _ _, ?_⟩
  intro earlier earlierMem new newMem overlap
  obtain rfl := List.mem_singleton.mp newMem
  have below : earlier.2.toNat ≤ (overlapMax newBounds entries).toNat :=
    UInt32.le_iff_toNat_le.mp (le_overlapMax earlierMem overlap)
  rw [overlapMax_toNat] at below
  rw [UInt32.lt_iff_toNat_lt, order_eq, expectedOrdering]
  omega

theorem insertAll_expectedOrdering {tree : BoundsTree K} {entries : List (Entry K)}
    (represents : Represents tree entries) (bounded : Bounded entries)
    (rects : List (Bounds K)) (few : entries.length + rects.length < 2 ^ 32 - 1) :
    ∃ orders final, insertAll tree rects = some (orders, final) ∧
      orders.length = rects.length ∧
      Represents final (entries ++ rects.zip orders) ∧
      ∀ index (inRange : index < rects.length),
        orders[index]?.map UInt32.toNat =
          some (expectedOrdering (entries ++ (rects.zip orders).take index) rects[index]) := by
  induction rects generalizing tree entries with
  | nil => exact ⟨[], tree, rfl, rfl, by simpa using represents, by simp⟩
  | cons newBounds rest ih =>
      simp only [List.length_cons] at few
      obtain ⟨order, tree', inserted, order_eq, represents', bounded'⟩ :=
        insert_expectedOrdering represents bounded (by omega) newBounds
      obtain ⟨orders, final, ran, length_eq, finalRepresents, spec⟩ :=
        ih represents' bounded' (by
          simp only [List.length_append, List.length_singleton]
          omega)
      refine ⟨order :: orders, final, ?_, ?_, ?_, ?_⟩
      · simp [insertAll, inserted, ran]
      · simp [length_eq]
      · simpa using finalRepresents
      · intro index inRange
        cases index with
        | zero => simp [order_eq]
        | succ index =>
            have later := spec index (by simpa using inRange)
            simpa using later

/-- For every sequence of insertions into an empty or cleared tree, each
returned order is the one the linear scan over the earlier rectangles gives. -/
theorem insertAll_from_empty (start : BoundsTree K)
    (fresh : start = empty ∨ ∃ old : BoundsTree K, start = old.clear)
    (rects : List (Bounds K)) (few : rects.length < 2 ^ 32 - 1) :
    ∃ orders final, insertAll start rects = some (orders, final) ∧
      orders.length = rects.length ∧
      ∀ index (inRange : index < rects.length),
        orders[index]?.map UInt32.toNat =
          some (expectedOrdering ((rects.zip orders).take index) rects[index]) := by
  have represents : Represents start [] := by
    rcases fresh with rfl | ⟨old, rfl⟩
    · exact represents_empty
    · exact represents_clear old
  obtain ⟨orders, final, ran, length_eq, -, spec⟩ :=
    insertAll_expectedOrdering represents (by simp [Bounded]) rects (by simpa using few)
  exact ⟨orders, final, ran, length_eq, by simpa using spec⟩

/-- Two overlapping rectangles and a third one beside them. -/
theorem insertAll_from_empty_three :
    ∃ orders final,
      insertAll (empty : BoundsTree ℚ)
          [⟨⟨0, 0⟩, ⟨10, 10⟩⟩, ⟨⟨5, 5⟩, ⟨10, 10⟩⟩, ⟨⟨20, 0⟩, ⟨1, 1⟩⟩] =
        some (orders, final) ∧ orders.length = 3 := by
  obtain ⟨orders, final, ran, length_eq, -⟩ :=
    insertAll_from_empty (empty : BoundsTree ℚ) (Or.inl rfl)
      [⟨⟨0, 0⟩, ⟨10, 10⟩⟩, ⟨⟨5, 5⟩, ⟨10, 10⟩⟩, ⟨⟨20, 0⟩, ⟨1, 1⟩⟩] (by decide)
  exact ⟨orders, final, ran, length_eq⟩

end Gpui.BoundsTree
