import Gpui.Library.SummedSequence
import Gpui.Scene.Primitive

/-!
# Lists

The state of a list is a sequence of items, of which some have been measured, and an anchor:
an item and an offset in it, at which the view starts.  Without an anchor the view is at the
start of the list or, for lists that are aligned to their bottom, at the end.

The items are kept in a sum tree, of which only what `SummedSequence` says is used.
-/

namespace Gpui

open Library

inductive ListAlignment where
  | top
  | bottom
deriving DecidableEq, Repr

inductive ListMeasuringBehavior where
  | measure (hasMeasured : Bool)
  | visible
deriving DecidableEq, Repr

/-- An item, with its focus handle if it has one. -/
inductive ListItem (F K : Type) where
  | unmeasured (focusHandle : Option F)
  | measured (size : Size K) (focusHandle : Option F)
deriving DecidableEq

/-- An offset into the items of a list. -/
structure ListOffset (K : Type) where
  itemIx : Nat
  offsetInItem : K
deriving DecidableEq

structure ListItemSummary (K : Type) where
  count : Nat
  height : K
  hasFocusHandles : Bool
deriving DecidableEq

variable {F K : Type}

namespace ListItem

def size : ListItem F K → Option (Size K)
  | unmeasured _ => none
  | measured size _ => some size

def focusHandle : ListItem F K → Option F
  | unmeasured focusHandle => focusHandle
  | measured _ focusHandle => focusHandle

/-- An item that has not been measured has no height. -/
def height [Zero K] (self : ListItem F K) : K :=
  match self with
  | unmeasured _ => 0
  | measured size _ => size.height

def summary [Zero K] (self : ListItem F K) : ListItemSummary K :=
  ⟨1, self.height, self.focusHandle.isSome⟩

end ListItem

namespace ListItemSummary

instance [Zero K] : Zero (ListItemSummary K) :=
  ⟨⟨0, 0, false⟩⟩

/-- `add_summary`. -/
instance [Add K] : Add (ListItemSummary K) :=
  ⟨fun self summary => ⟨self.count + summary.count, self.height + summary.height,
    self.hasFocusHandles || summary.hasFocusHandles⟩⟩

instance [AddCommMonoid K] : AddCommMonoid (ListItemSummary K) where
  add_assoc first second third :=
    ListItemSummary.mk.injEq .. ▸ ⟨Nat.add_assoc .., add_assoc .., Bool.or_assoc ..⟩
  zero_add summary :=
    ListItemSummary.mk.injEq .. ▸ ⟨Nat.zero_add .., zero_add .., Bool.false_or ..⟩
  add_zero summary :=
    ListItemSummary.mk.injEq .. ▸ ⟨Nat.add_zero .., add_zero .., Bool.or_false ..⟩
  add_comm first second :=
    ListItemSummary.mk.injEq .. ▸ ⟨Nat.add_comm .., add_comm .., Bool.or_comm ..⟩
  nsmul := nsmulRec

/-- The target `Count`. -/
def atCount (count : Nat) (summary : ListItemSummary K) : Ordering :=
  compare count summary.count

/-- The target `Height`. -/
def atHeight [LinearOrder K] (height : K) (summary : ListItemSummary K) : Ordering :=
  compare height summary.height

section Sum

variable [AddCommMonoid K] (first second : ListItemSummary K) (items : List (ListItem F K))

@[simp]
theorem zero_count : (0 : ListItemSummary K).count = 0 := rfl

@[simp]
theorem add_count : (first + second).count = first.count + second.count := rfl

@[simp]
theorem zero_height : (0 : ListItemSummary K).height = 0 := rfl

@[simp]
theorem add_height : (first + second).height = first.height + second.height := rfl

@[simp]
theorem sum_count : ((items.map ListItem.summary).sum).count = items.length := by
  induction items with
  | nil => rfl
  | cons item items ih =>
      rw [List.map_cons, List.sum_cons, add_count, ih, List.length_cons, Nat.add_comm]
      rfl

@[simp]
theorem sum_height :
    ((items.map ListItem.summary).sum).height = (items.map ListItem.height).sum := by
  induction items with
  | nil => rfl
  | cons item items ih =>
      rw [List.map_cons, List.sum_cons, add_height, ih, List.map_cons, List.sum_cons]
      rfl

end Sum

end ListItemSummary

/-- A sum tree of items. -/
abbrev ListItems (F K : Type) [AddCommMonoid K] :=
  SummedSequence (ListItem.summary : ListItem F K → ListItemSummary K)

/-- The state that views hold for the list element.  Of the scroll handler only whether there
is one is kept. -/
structure ListState [AddCommMonoid K] (S : ListItems F K) where
  lastLayoutBounds : Option (Bounds K)
  lastPadding : Option (Edges K)
  items : S.Tree
  logicalScrollTop? : Option (ListOffset K)
  alignment : ListAlignment
  overdraw : K
  isReset : Bool
  hasScrollHandler : Bool
  scrollbarDragStartHeight : Option K
  measuringBehavior : ListMeasuringBehavior

namespace ListState

open ListItemSummary

variable [AddCommMonoid K] {S : ListItems F K}

def itemCount (self : ListState S) : Nat :=
  (S.total self.items).count

/-- Where the view starts. -/
def logicalScrollTop (self : ListState S) : ListOffset K :=
  self.logicalScrollTop?.getD
    (match self.alignment with
    | .top => ⟨0, 0⟩
    | .bottom => ⟨(S.total self.items).count, 0⟩)

/-- The items in a range have been replaced by new ones, with or without focus handles. -/
def spliceFocusable (self : ListState S) (start stop : Nat) (focusHandles : List (Option F)) :
    ListState S :=
  let oldItems := S.cursor self.items
  let newItems := S.slice (atCount start) .right oldItems
  let oldItems := S.seekForward (atCount start) .right oldItems
  let oldItems := S.seekForward (atCount stop) .right oldItems
  let splicedCount := focusHandles.length
  let newItems := S.append newItems (S.fromIter (focusHandles.map .unmeasured))
  let newItems := S.append newItems (S.suffix oldItems)
  { self with
    items := newItems
    logicalScrollTop? := self.logicalScrollTop?.map fun scrollTop =>
      if start ≤ scrollTop.itemIx ∧ scrollTop.itemIx < stop then ⟨start, 0⟩
      else if stop ≤ scrollTop.itemIx then
        { scrollTop with itemIx := scrollTop.itemIx - (stop - start) + splicedCount }
      else scrollTop }

def splice (self : ListState S) (start stop count : Nat) : ListState S :=
  self.spliceFocusable start stop (List.replicate count none)

/-- A list of items that have not been measured. -/
def new (S : ListItems F K) (itemCount : Nat) (alignment : ListAlignment) (overdraw : K) :
    ListState S :=
  let empty : ListState S :=
    { lastLayoutBounds := none
      lastPadding := none
      items := S.fromIter []
      logicalScrollTop? := none
      alignment
      overdraw
      isReset := false
      hasScrollHandler := false
      scrollbarDragStartHeight := none
      measuringBehavior := .visible }
  empty.splice 0 0 itemCount

end ListState

/-! ## Seeking -/

section Seek

variable [AddCommMonoid K] {items : List (ListItem F K)}

omit [AddCommMonoid K] in
theorem passes_atCount {count : Nat} {ends : ListItemSummary K} :
    Bias.right.passes (ListItemSummary.atCount count ends) = true ↔ ends.count ≤ count := by
  rw [ListItemSummary.atCount]
  rcases lt_trichotomy count ends.count with less | same | greater
  · rw [compare_lt_iff_lt.mpr less]
    exact iff_of_false Bool.false_ne_true (not_le.mpr less)
  · rw [compare_eq_iff_eq.mpr same]
    exact iff_of_true rfl same.ge
  · rw [compare_gt_iff_gt.mpr greater]
    exact iff_of_true rfl (le_of_lt greater)

theorem seekable_atCount (count : Nat) (start : ListItemSummary K)
    (items : List (ListItem F K)) :
    Seekable ListItem.summary
      (fun ends => Bias.right.passes (ListItemSummary.atCount count ends)) start items := by
  intro n m _ less bound behind
  rw [passes_atCount, ListItemSummary.add_count, ListItemSummary.sum_count, List.length_take]
    at behind ⊢
  omega

/-- A count is behind as many items as there are before it. -/
theorem passCount_atCount {count : Nat} {start : ListItemSummary K}
    (behind : start.count ≤ count) (bound : count ≤ start.count + items.length) :
    passCount ListItem.summary
      (fun ends => Bias.right.passes (ListItemSummary.atCount count ends)) start items =
        count - start.count := by
  apply passCount_eq
  · omega
  · intro m _ less
    rw [passes_atCount, ListItemSummary.add_count, ListItemSummary.sum_count, List.length_take]
    omega
  · intro less
    rw [Bool.eq_false_iff, Ne, passes_atCount, ListItemSummary.add_count,
      ListItemSummary.sum_count, List.length_take]
    omega

end Seek

namespace ListState

variable [AddCommMonoid K] {S : ListItems F K}

/-- A cursor at an index. -/
theorem around_seek_atCount (tree : S.Tree) {count : Nat}
    (bound : count ≤ (S.items tree).length) :
    S.passed (S.seek (ListItemSummary.atCount count) .right tree) = (S.items tree).take count ∧
      S.remaining (S.seek (ListItemSummary.atCount count) .right tree) =
        (S.items tree).drop count := by
  have around := S.around_seek (seekable_atCount count 0 (S.items tree))
  rw [passCount_atCount (Nat.zero_le _) (by simpa using bound)] at around
  exact around

/-- The items before an index. -/
theorem items_slice_atCount (tree : S.Tree) {count : Nat} (bound : count ≤ (S.items tree).length) :
    S.items (S.slice (ListItemSummary.atCount count) .right (S.cursor tree)) =
      (S.items tree).take count := by
  have sum : ((S.passed (S.cursor tree)).map ListItem.summary).sum = 0 := by
    rw [S.passed_cursor]
    rfl
  rw [S.items_slice (seekable_atCount _ _ _), S.remaining_cursor, sum,
    passCount_atCount (Nat.zero_le _) (by simpa using bound)]
  rfl

@[simp]
theorem itemCount_eq (self : ListState S) : self.itemCount = (S.items self.items).length := by
  rw [itemCount, SummedSequence.total, ListItemSummary.sum_count]

/-! ## Splicing -/

variable {state : ListState S} {start stop : Nat}

theorem items_spliceFocusable (ordered : start ≤ stop)
    (bound : stop ≤ (S.items state.items).length) (focusHandles : List (Option F)) :
    S.items (state.spliceFocusable start stop focusHandles).items =
      (S.items state.items).take start ++ focusHandles.map .unmeasured ++
        (S.items state.items).drop stop := by
  have startBound : start ≤ (S.items state.items).length := ordered.trans bound
  have atStart := around_seek_atCount state.items startBound
  rw [SummedSequence.seek] at atStart
  have atStop := S.around_seekForward (seekable_atCount stop
    ((S.passed (S.seekForward (ListItemSummary.atCount start) .right
      (S.cursor state.items))).map ListItem.summary).sum
    (S.remaining (S.seekForward (ListItemSummary.atCount start) .right (S.cursor state.items))))
  rw [atStart.1, atStart.2, passCount_atCount] at atStop
  · rw [spliceFocusable]
    dsimp only
    rw [S.items_append, S.items_append, S.items_fromIter, S.items_suffix,
      items_slice_atCount state.items startBound, atStop.2, ListItemSummary.sum_count,
      List.length_take, List.drop_drop, Nat.min_eq_left startBound, Nat.add_sub_cancel' ordered]
  · rw [ListItemSummary.sum_count, List.length_take]
    omega
  · rw [ListItemSummary.sum_count, List.length_take, List.length_drop]
    omega

/-- What is expected when items are replaced: a view that has an anchor stays on its item, or
starts at the first new one if that was replaced; without an anchor it stays at the start or at
the end of the list. -/
structure Spliced (state next : ListState S) (start stop : Nat) (focusHandles : List (Option F)) :
    Prop where
  items : S.items next.items = (S.items state.items).take start ++
    focusHandles.map .unmeasured ++ (S.items state.items).drop stop
  before : ∀ anchor, state.logicalScrollTop? = some anchor → anchor.itemIx < start →
    next.logicalScrollTop = anchor ∧
      (S.items next.items).take (anchor.itemIx + 1) =
        (S.items state.items).take (anchor.itemIx + 1)
  after : ∀ anchor, state.logicalScrollTop? = some anchor → stop ≤ anchor.itemIx →
    next.logicalScrollTop.itemIx + (stop - start) = anchor.itemIx + focusHandles.length ∧
      next.logicalScrollTop.offsetInItem = anchor.offsetInItem ∧
      (S.items next.items).drop next.logicalScrollTop.itemIx =
        (S.items state.items).drop anchor.itemIx
  inside : ∀ anchor, state.logicalScrollTop? = some anchor → start ≤ anchor.itemIx →
    anchor.itemIx < stop → next.logicalScrollTop = ⟨start, 0⟩
  atEdge : state.logicalScrollTop? = none →
    next.logicalScrollTop? = none ∧
      next.logicalScrollTop =
        match state.alignment with
        | .top => ⟨0, 0⟩
        | .bottom => ⟨(S.items next.items).length, 0⟩

theorem spliceFocusable_spliced (state : ListState S) (ordered : start ≤ stop)
    (bound : stop ≤ (S.items state.items).length) (focusHandles : List (Option F)) :
    Spliced state (state.spliceFocusable start stop focusHandles) start stop focusHandles := by
  have items := items_spliceFocusable ordered bound focusHandles
  have anchored : ∀ anchor, state.logicalScrollTop? = some anchor →
      (state.spliceFocusable start stop focusHandles).logicalScrollTop =
        if start ≤ anchor.itemIx ∧ anchor.itemIx < stop then ⟨start, 0⟩
        else if stop ≤ anchor.itemIx then
          { anchor with itemIx := anchor.itemIx - (stop - start) + focusHandles.length }
        else anchor := by
    intro anchor isAnchor
    rw [logicalScrollTop, spliceFocusable]
    dsimp only
    rw [isAnchor]
    rfl
  constructor
  · exact items
  · intro anchor isAnchor before
    rw [anchored anchor isAnchor, if_neg (by omega), if_neg (by omega), items, List.append_assoc,
      List.take_append_of_le_length, List.take_take, Nat.min_eq_left before]
    · exact ⟨rfl, rfl⟩
    · rw [List.length_take]
      omega
  · intro anchor isAnchor after
    rw [anchored anchor isAnchor, if_neg (by omega), if_pos after, items]
    dsimp only
    refine ⟨by omega, rfl, ?_⟩
    have front : ((S.items state.items).take start ++
        focusHandles.map ListItem.unmeasured).length = start + focusHandles.length := by
      rw [List.length_append, List.length_take, List.length_map]
      omega
    have behind : start + focusHandles.length ≤
        anchor.itemIx - (stop - start) + focusHandles.length := by
      omega
    rw [List.drop_append, List.drop_eq_nil_of_le (front.trans_le behind), front, List.nil_append,
      List.drop_drop]
    congr 1
    omega
  · intro anchor isAnchor from_ below
    rw [anchored anchor isAnchor, if_pos ⟨from_, below⟩]
  · intro noAnchor
    have stays : (state.spliceFocusable start stop focusHandles).logicalScrollTop? = none := by
      rw [spliceFocusable]
      dsimp only
      rw [noAnchor]
      rfl
    refine ⟨stays, ?_⟩
    rw [logicalScrollTop, stays, SummedSequence.total, ListItemSummary.sum_count]
    rfl

/-- Three items, of which the last two are replaced by one. -/
theorem spliceFocusable_spliced_three :
    let S : ListItems Unit ℚ := .ofLists _
    let state : ListState S :=
      { ListState.new S 3 .top 0 with logicalScrollTop? := some ⟨2, 4⟩ }
    Spliced state (state.spliceFocusable 1 3 [none]) 1 3 [none] :=
  spliceFocusable_spliced _ (by decide) (by decide) [none]

/-- The view is at the start of a list of one item, of height 10, without an anchor.  After an
item has been inserted there, it is at that one. -/
theorem not_spliceFocusable_keepsItem :
    let S : ListItems Unit ℚ := .ofLists _
    let items : List (ListItem Unit ℚ) := [.measured ⟨50, 10⟩ none]
    let state : ListState S :=
      { ListState.new S 0 .top 0 with items }
    let next := state.splice 0 0 1
    ¬ (0 ≤ state.logicalScrollTop.itemIx ∧ state.logicalScrollTop.itemIx < 0) ∧
      (S.items state.items)[state.logicalScrollTop.itemIx]? = some (.measured ⟨50, 10⟩ none) ∧
      (S.items next.items)[next.logicalScrollTop.itemIx]? = some (.unmeasured none) ∧
      (S.items next.items)[1]? = some (.measured ⟨50, 10⟩ none) := by
  decide +kernel

end ListState

end Gpui
