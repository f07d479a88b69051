import Gpui.Library.StableSort
import Gpui.TabStop.Core

/-!
# The tab order

What a frame paints is a sequence of focus handles and of groups of such sequences.
Its handles, sorted by their paths and then by when they were inserted, are the order
that `next` follows and `prev` goes back along.
-/

namespace Gpui

open Gpui.Library

/-- A bracketed sequence of operations. -/
inductive TabContents where
  | nil
  | insert (focusHandle : FocusHandle) (rest : TabContents)
  | group (tabIndex : TabIndex) (inner rest : TabContents)
deriving DecidableEq, Repr

/-- A focus handle, with the path to it and its place among the operations. -/
structure Registration where
  path : List TabIndex
  index : Nat
  focusHandle : FocusHandle
deriving DecidableEq, Repr

namespace Registration

def node (self : Registration) : TabStopNode :=
  ⟨self.path, self.index, self.focusHandle.tabStop⟩

def id (self : Registration) : FocusId :=
  self.focusHandle.id

end Registration

namespace TabContents

def operations : TabContents → List TabStopOperation
  | nil => []
  | insert focusHandle rest => .insert focusHandle :: rest.operations
  | group tabIndex inner rest =>
      .group tabIndex :: (inner.operations ++ .groupEnd :: rest.operations)

/-- The handles in groups with the given indices, after a number of operations. -/
def registered : TabContents → List TabIndex → Nat → List Registration
  | nil, _, _ => []
  | insert focusHandle rest, path, start =>
      ⟨path ++ [focusHandle.tabIndex], start, focusHandle⟩ :: rest.registered path (start + 1)
  | group tabIndex inner rest, path, start =>
      inner.registered (path ++ [tabIndex]) (start + 1) ++
        rest.registered path (start + 1 + inner.operations.length + 1)

/-- The handles of a frame. -/
def registrations (self : TabContents) : List Registration :=
  self.registered [] 0

end TabContents

/-- The tab stops among registered handles, in the order of their paths and of their
insertion. -/
def tour (entries : List Registration) : List Registration :=
  sortByKey (fun entry => entry.node.key) (entries.filter fun entry => entry.focusHandle.tabStop)

def TabContents.tabOrder (self : TabContents) : List FocusHandle :=
  (tour self.registrations).map Registration.focusHandle

namespace TabStopMap

variable {S : SumTree}

/-- The handles that `next` gives one after the other, starting from nothing focused. -/
def visit (self : TabStopMap S) : Nat → Option FocusHandle
  | 0 => self.next none
  | count + 1 => do
      let handle ← self.visit count
      self.next (some handle.id)

/-! ## What the map holds -/

/-- The map holds registered handles with different ids. -/
structure Represents (map : TabStopMap S) (entries : List Registration) : Prop where
  items : (S.items map.order).Perm (entries.map Registration.node)
  history : ∀ entry ∈ entries,
    map.insertionHistory[entry.index]? = some (.insert entry.focusHandle)
  byId : ∀ entry ∈ entries, map.byId entry.id = some entry.node

theorem represents_new : Represents (new S) [] where
  items := by
    rw [new, S.items_new]
    exact .nil
  history _ member := absurd member List.not_mem_nil
  byId _ member := absurd member List.not_mem_nil

theorem items_insertOrReplace {tree : S.Tree} {added : TabStopNode}
    (new : ∀ node ∈ S.items tree, node.key ≠ added.key) :
    (S.items (S.insertOrReplace added tree)).Perm (added :: S.items tree) := by
  have absent : added ∉ S.items tree := fun member => new added member rfl
  rw [List.perm_ext_iff_of_nodup (S.nodup_items _) (List.nodup_cons.mpr ⟨absent, S.nodup_items _⟩)]
  intro node
  rw [S.mem_insertOrReplace, List.mem_cons]
  constructor
  · exact Or.imp id And.left
  · exact Or.imp id fun member => ⟨member, new node member⟩

theorem Represents.insert {self : TabStopMap S} {entries : List Registration}
    (represents : Represents self entries) {focusHandle : FocusHandle}
    (fresh : ∀ entry ∈ entries, entry.id ≠ focusHandle.id) :
    Represents (self.insert focusHandle) (entries ++
      [⟨self.currentPath ++ [focusHandle.tabIndex], self.insertionHistory.length, focusHandle⟩]) := by
  have older : ∀ entry ∈ entries, entry.index < self.insertionHistory.length :=
    fun entry member => (List.getElem?_eq_some_iff.mp (represents.history entry member)).1
  have index : (self.insertionHistory ++ [TabStopOperation.insert focusHandle]).length - 1 =
      self.insertionHistory.length := by
    simp
  constructor
  · rw [TabStopMap.insert, List.map_append, index]
    refine (items_insertOrReplace ?_).trans
      ((represents.items.cons _).trans (List.perm_append_singleton _ _).symm)
    intro node member same
    rcases List.mem_map.mp (represents.items.mem_iff.1 member) with ⟨entry, old, rfl⟩
    have sameIndex := congrArg (fun key => (ofLex key).2) same
    exact absurd sameIndex (older entry old).ne
  · intro entry member
    rw [TabStopMap.insert]
    rcases List.mem_append.mp member with old | new
    · rw [List.getElem?_append_left (older entry old)]
      exact represents.history entry old
    · rw [List.mem_singleton.mp new]
      exact List.getElem?_concat_length
  · intro entry member
    rw [TabStopMap.insert, index]
    rcases List.mem_append.mp member with old | new
    · exact (Function.update_of_ne (fresh entry old) _ _).trans (represents.byId entry old)
    · rw [List.mem_singleton.mp new]
      exact Function.update_self _ _ _

/-- The groups and their ends change nothing that is represented. -/
theorem Represents.mono {self after : TabStopMap S} {entries : List Registration}
    (represents : Represents self entries) {operation : TabStopOperation}
    (history : after.insertionHistory = self.insertionHistory ++ [operation])
    (byId : after.byId = self.byId) (order : after.order = self.order) :
    Represents after entries where
  items := by
    rw [order]
    exact represents.items
  history entry member := by
    have here := represents.history entry member
    rw [history, List.getElem?_append_left (List.getElem?_eq_some_iff.mp here).1, here]
  byId entry member := by
    rw [byId]
    exact represents.byId entry member

theorem insertionHistory_replay (self : TabStopMap S) (nodes : List TabStopOperation) :
    (self.replay nodes).insertionHistory = self.insertionHistory ++ nodes := by
  induction nodes generalizing self with
  | nil => exact (List.append_nil _).symm
  | cons node nodes ih =>
      have first : (self.replayOne node).insertionHistory = self.insertionHistory ++ [node] := by
        cases node <;> rfl
      rw [replay, List.foldl_cons, ← replay, ih, first, List.append_assoc]
      rfl

theorem replay_append (self : TabStopMap S) (front back : List TabStopOperation) :
    self.replay (front ++ back) = (self.replay front).replay back :=
  List.foldl_append

theorem currentPath_replay (self : TabStopMap S) (contents : TabContents) :
    (self.replay contents.operations).currentPath = self.currentPath := by
  induction contents generalizing self with
  | nil => rfl
  | insert focusHandle rest ih => exact ih (self.insert focusHandle)
  | group tabIndex inner rest innerIH restIH =>
      have inside := innerIH (self.beginGroup tabIndex)
      change ((self.beginGroup tabIndex).replay
        (inner.operations ++ .groupEnd :: rest.operations)).currentPath = _
      rw [replay_append]
      refine (restIH ((self.beginGroup tabIndex).replay inner.operations).endGroup).trans ?_
      rw [endGroup, inside]
      exact List.dropLast_concat

theorem Represents.replay {self : TabStopMap S} {entries : List Registration}
    (represents : Represents self entries) (contents : TabContents) {path : List TabIndex}
    {start : Nat} (currentPath : self.currentPath = path)
    (length : self.insertionHistory.length = start)
    (distinct : ((entries ++ contents.registered path start).map Registration.id).Nodup) :
    Represents (self.replay contents.operations) (entries ++ contents.registered path start) := by
  induction contents generalizing self entries path start with
  | nil =>
      rw [TabContents.registered, List.append_nil]
      exact represents
  | insert focusHandle rest ih =>
      rw [TabContents.registered, List.append_cons] at distinct ⊢
      have fresh : ∀ entry ∈ entries, entry.id ≠ focusHandle.id := by
        intro entry member same
        rw [List.map_append, List.map_append] at distinct
        have apart := (List.nodup_append.mp (List.nodup_append.mp distinct).1).2.2
        exact apart _ (List.mem_map_of_mem member) _ (List.mem_singleton.mpr rfl) same
      have inserted := represents.insert fresh
      rw [currentPath, length] at inserted
      have insertedPath : (self.insert focusHandle).currentPath = path := currentPath
      have insertedLength : (self.insert focusHandle).insertionHistory.length = start + 1 := by
        rw [TabStopMap.insert, List.length_append, length]
        rfl
      exact ih inserted insertedPath insertedLength distinct
  | group tabIndex inner rest innerIH restIH =>
      rw [TabContents.registered, ← List.append_assoc] at distinct ⊢
      have begun : Represents (self.beginGroup tabIndex) entries := represents.mono rfl rfl rfl
      have insidePath : (self.beginGroup tabIndex).currentPath = path ++ [tabIndex] := by
        rw [beginGroup, currentPath]
      have insideLength : (self.beginGroup tabIndex).insertionHistory.length = start + 1 := by
        rw [beginGroup, List.length_append, length]
        rfl
      have innerDistinct := (List.nodup_append.mp (List.map_append ▸ distinct)).1
      have inside := innerIH begun insidePath insideLength innerDistinct
      have ended : Represents ((self.beginGroup tabIndex).replay inner.operations).endGroup
          (entries ++ inner.registered (path ++ [tabIndex]) (start + 1)) :=
        inside.mono rfl rfl rfl
      change Represents ((self.beginGroup tabIndex).replay
        (inner.operations ++ .groupEnd :: rest.operations)) _
      rw [replay_append]
      apply restIH ended ?_ ?_ distinct
      · rw [endGroup, currentPath_replay, insidePath]
        exact List.dropLast_concat
      · rw [endGroup, List.length_append, insertionHistory_replay, List.length_append, insideLength]
        rfl

theorem represents_contents (contents : TabContents)
    (distinct : (contents.registrations.map Registration.id).Nodup) :
    Represents ((new S).replay contents.operations) contents.registrations :=
  represents_new.replay contents rfl rfl distinct

/-! ## One step along the order -/

/-- The tab stops in the map's own order. -/
def stops (self : TabStopMap S) : List TabStopNode :=
  (S.items self.order).filter TabStopNode.tabStop

theorem nodup_stops (self : TabStopMap S) : self.stops.Nodup :=
  (S.nodup_items self.order).filter _

theorem nextInner_eq {self : TabStopMap S} {front back : List TabStopNode} {node : TabStopNode}
    (items : S.items self.order = front ++ node :: back) :
    self.nextInner node = (back.filter TabStopNode.tabStop).head? :=
  (S.item_after _ items).trans List.head?_filter.symm

theorem prevInner_eq {self : TabStopMap S} {front back : List TabStopNode} {node : TabStopNode}
    (items : S.items self.order = front ++ node :: back) :
    self.prevInner node = (front.filter TabStopNode.tabStop).getLast? := by
  refine (S.item_before _ items).trans ?_
  rw [← List.head?_filter, List.filter_reverse, List.head?_reverse]

theorem nextOfNone_eq (self : TabStopMap S) :
    self.nextOfNone = self.stops.head?.bind self.focusHandleForOrder := by
  rw [nextOfNone, S.first_eq, stops]
  cases items : S.items self.order with
  | nil => rfl
  | cons first rest =>
      cases stop : first.tabStop with
      | true => simp [stop]
      | false =>
          have after : self.nextInner first = (rest.filter TabStopNode.tabStop).head? :=
            nextInner_eq (items.trans (List.nil_append _).symm)
          simp [stop, after]

theorem prevOfNone_eq (self : TabStopMap S) :
    self.prevOfNone = self.stops.getLast?.bind self.focusHandleForOrder := by
  rw [prevOfNone, S.last_eq, stops]
  rcases List.eq_nil_or_concat (S.items self.order) with items | ⟨front, last, items⟩
  · rw [items]
    rfl
  · rw [List.concat_eq_append] at items
    rw [items]
    cases stop : last.tabStop with
    | true => simp [stop]
    | false =>
        have before := prevInner_eq items
        simp [stop, before]

theorem items_around_stop {self : TabStopMap S} {index : Nat} {node : TabStopNode}
    (here : self.stops[index]? = some node) :
    ∃ front back, S.items self.order = front ++ node :: back ∧
      front.filter TabStopNode.tabStop = self.stops.take index ∧
      back.filter TabStopNode.tabStop = self.stops.drop (index + 1) := by
  rcases List.mem_filter.mp (List.mem_of_getElem? here) with ⟨member, stop⟩
  rcases List.append_of_mem member with ⟨front, back, items⟩
  have split : self.stops =
      front.filter TabStopNode.tabStop ++ node :: back.filter TabStopNode.tabStop := by
    rw [stops, items, List.filter_append, List.filter_cons_of_pos stop]
  have position : index = (front.filter TabStopNode.tabStop).length := by
    rcases List.getElem?_eq_some_iff.mp here with ⟨within, same⟩
    have there : self.stops[(front.filter TabStopNode.tabStop).length]? = some node := by
      rw [split, List.getElem?_append_right le_rfl, Nat.sub_self]
      rfl
    rcases List.getElem?_eq_some_iff.mp there with ⟨thereWithin, thereSame⟩
    exact (self.nodup_stops.getElem_inj_iff).mp (same.trans thereSame.symm)
  refine ⟨front, back, items, ?_, ?_⟩
  · rw [split, position, List.take_left]
  · rw [split, position, List.drop_length_add_append, List.drop_one, List.tail_cons]

theorem next_stop {self : TabStopMap S} {index : Nat} {node : TabStopNode} {id : FocusId}
    (here : self.stops[index]? = some node) (registered : self.byId id = some node) :
    self.next (some id) =
      self.stops[(index + 1) % self.stops.length]?.bind self.focusHandleForOrder := by
  rcases items_around_stop here with ⟨front, back, items, _, after⟩
  have within := (List.getElem?_eq_some_iff.mp here).1
  simp only [next, registered, nextInner_eq items, after, List.head?_drop]
  by_cases last : index + 1 < self.stops.length
  · rw [Nat.mod_eq_of_lt last, List.getElem?_eq_getElem last]
    rfl
  · have wraps : index + 1 = self.stops.length := by omega
    rw [wraps, Nat.mod_self, List.getElem?_eq_none le_rfl, nextOfNone_eq, List.head?_eq_getElem?]

theorem prev_stop {self : TabStopMap S} {index : Nat} {node : TabStopNode} {id : FocusId}
    (here : self.stops[index]? = some node) (registered : self.byId id = some node) :
    self.prev (some id) =
      self.stops[(index + (self.stops.length - 1)) % self.stops.length]?.bind
        self.focusHandleForOrder := by
  rcases items_around_stop here with ⟨front, back, items, before, _⟩
  have within := (List.getElem?_eq_some_iff.mp here).1
  simp only [prev, registered, prevInner_eq items, before]
  cases index with
  | zero =>
      rw [Nat.zero_add, Nat.mod_eq_of_lt (by omega), prevOfNone_eq, ← List.getLast?_eq_getElem?]
      rfl
  | succ index =>
      have previous : (index + 1 + (self.stops.length - 1)) % self.stops.length = index := by
        have length : index + 1 + (self.stops.length - 1) = index + self.stops.length := by omega
        rw [length, Nat.add_mod_right, Nat.mod_eq_of_lt (by omega)]
      have there : index < self.stops.length := Nat.lt_of_succ_lt within
      have last : (self.stops.take (index + 1)).getLast? = some self.stops[index] := by
        rw [List.getLast?_take, if_neg (Nat.succ_ne_zero index), Nat.add_sub_cancel,
          List.getElem?_eq_getElem there]
        rfl
      rw [previous, last, List.getElem?_eq_getElem there]
      rfl

/-! ## Runs along the order -/

section Tour

variable {self : TabStopMap S} {entries : List Registration}

theorem Represents.stops_eq (represents : Represents self entries) :
    self.stops = (tour entries).map Registration.node := by
  have nodes : (entries.map Registration.node).Pairwise fun before after =>
      before.key ≠ after.key :=
    represents.items.pairwise ((S.sorted self.order).imp ne_of_lt) fun differ => differ.symm
  have stopNodes : (entries.filter fun entry => entry.focusHandle.tabStop).Pairwise
      fun before after => before.node.key ≠ after.node.key :=
    (List.pairwise_map.mp nodes).filter _
  have sorted : ((tour entries).map Registration.node).Pairwise fun before after =>
      before.key < after.key :=
    List.pairwise_map.mpr (sortByKey_pairwise_lt stopNodes)
  have same : self.stops.Perm ((tour entries).map Registration.node) := by
    have filtered := represents.items.filter TabStopNode.tabStop
    rw [List.filter_map] at filtered
    exact filtered.trans ((sortByKey_perm _ _).map _).symm
  exact same.eq_of_pairwise (fun _ _ _ _ below above => absurd above below.asymm)
    ((S.sorted self.order).filter _) sorted

theorem mem_tour {entry : Registration} :
    entry ∈ tour entries ↔ entry ∈ entries ∧ entry.focusHandle.tabStop = true := by
  rw [tour, mem_sortByKey, List.mem_filter]

theorem Represents.focusHandleForOrder (represents : Represents self entries)
    {entry : Registration} (member : entry ∈ entries) :
    self.focusHandleForOrder entry.node = some entry.focusHandle := by
  have here : self.insertionHistory[entry.node.nodeInsertionIndex]? =
      some (.insert entry.focusHandle) := represents.history entry member
  rw [TabStopMap.focusHandleForOrder, here]
  rfl

theorem Represents.focusHandleForOrder_stop (represents : Represents self entries) (index : Nat) :
    self.stops[index]?.bind self.focusHandleForOrder =
      (tour entries)[index]?.map Registration.focusHandle := by
  rw [represents.stops_eq, List.getElem?_map]
  cases here : (tour entries)[index]? with
  | none => rfl
  | some entry =>
      exact represents.focusHandleForOrder (mem_tour.1 (List.mem_of_getElem? here)).1

theorem Represents.next_tour (represents : Represents self entries) {index : Nat}
    {entry : Registration} (here : (tour entries)[index]? = some entry) :
    self.next (some entry.id) =
      (tour entries)[(index + 1) % (tour entries).length]?.map Registration.focusHandle := by
  have registered := represents.byId entry (mem_tour.1 (List.mem_of_getElem? here)).1
  have stop : self.stops[index]? = some entry.node := by
    rw [represents.stops_eq, List.getElem?_map, here]
    rfl
  rw [next_stop stop registered, represents.focusHandleForOrder_stop, represents.stops_eq,
    List.length_map]

theorem Represents.prev_tour (represents : Represents self entries) {index : Nat}
    {entry : Registration} (here : (tour entries)[index]? = some entry) :
    self.prev (some entry.id) =
      (tour entries)[(index + ((tour entries).length - 1)) % (tour entries).length]?.map
        Registration.focusHandle := by
  have registered := represents.byId entry (mem_tour.1 (List.mem_of_getElem? here)).1
  have stop : self.stops[index]? = some entry.node := by
    rw [represents.stops_eq, List.getElem?_map, here]
    rfl
  rw [prev_stop stop registered, represents.focusHandleForOrder_stop, represents.stops_eq,
    List.length_map]

theorem Represents.visit_eq (represents : Represents self entries) (count : Nat) :
    self.visit count =
      (tour entries)[count % (tour entries).length]?.map Registration.focusHandle := by
  induction count with
  | zero =>
      rw [visit, next, nextOfNone_eq, List.head?_eq_getElem?, represents.focusHandleForOrder_stop,
        Nat.zero_mod]
  | succ count ih =>
      rw [visit, ih]
      cases here : (tour entries)[count % (tour entries).length]? with
      | none =>
          have empty : tour entries = [] := by
            by_contra nonempty
            have within := Nat.mod_lt count (List.length_pos_of_ne_nil nonempty)
            rw [List.getElem?_eq_getElem within] at here
            cases here
          rw [empty]
          rfl
      | some entry =>
          refine (represents.next_tour here).trans ?_
          rw [Nat.mod_add_mod]

theorem Represents.prev_next (represents : Represents self entries) {entry : Registration}
    (member : entry ∈ tour entries) :
    (do self.prev (some (← self.next (some entry.id)).id)) = some entry.focusHandle := by
  rcases List.getElem?_of_mem member with ⟨index, here⟩
  have within := (List.getElem?_eq_some_iff.mp here).1
  have after := Nat.mod_lt (index + 1) (Nat.zero_lt_of_lt within)
  have back : ((index + 1) % (tour entries).length + ((tour entries).length - 1)) %
      (tour entries).length = index := by
    have around : index + 1 + ((tour entries).length - 1) = index + (tour entries).length := by
      omega
    rw [Nat.mod_add_mod, around, Nat.add_mod_right, Nat.mod_eq_of_lt within]
  have there := List.getElem?_eq_getElem after
  rw [represents.next_tour here, there]
  refine (represents.prev_tour there).trans ?_
  rw [back, here]
  rfl

theorem Represents.next_prev (represents : Represents self entries) {entry : Registration}
    (member : entry ∈ tour entries) :
    (do self.next (some (← self.prev (some entry.id)).id)) = some entry.focusHandle := by
  rcases List.getElem?_of_mem member with ⟨index, here⟩
  have within := (List.getElem?_eq_some_iff.mp here).1
  have before := Nat.mod_lt (index + ((tour entries).length - 1)) (Nat.zero_lt_of_lt within)
  have forth : ((index + ((tour entries).length - 1)) % (tour entries).length + 1) %
      (tour entries).length = index := by
    have around : index + ((tour entries).length - 1) + 1 = index + (tour entries).length := by
      omega
    rw [Nat.mod_add_mod, around, Nat.add_mod_right, Nat.mod_eq_of_lt within]
  have there := List.getElem?_eq_getElem before
  rw [represents.prev_tour here, there]
  refine (represents.next_tour there).trans ?_
  rw [forth, here]
  rfl

end Tour

/-- However a frame's calls are bracketed into groups and replays, `next` visits the tab
stops in the order of their paths and of their insertion, round and round, and `prev`
undoes it, if no focus handle is inserted twice. -/
theorem tabOrder_followed (S : SumTree) {calls : List TabStopCall} (contents : TabContents)
    (bracketed : calls.flatMap TabStopCall.operations = contents.operations)
    (distinct : (contents.registrations.map Registration.id).Nodup) :
    (∀ count, ((new S).run calls).visit count =
      contents.tabOrder[count % contents.tabOrder.length]?) ∧
    contents.tabOrder.Perm ((contents.registrations.map Registration.focusHandle).filter
      FocusHandle.tabStop) ∧
    (contents.tabOrder.map FocusHandle.id).Nodup ∧
    ∀ handle ∈ contents.tabOrder,
      (do ((new S).run calls).prev (some (← ((new S).run calls).next (some handle.id)).id)) =
        some handle ∧
      (do ((new S).run calls).next (some (← ((new S).run calls).prev (some handle.id)).id)) =
        some handle := by
  rw [run_eq_replay, bracketed]
  have represents := represents_contents (S := S) contents distinct
  have stops : contents.tabOrder.Perm ((contents.registrations.map Registration.focusHandle).filter
      FocusHandle.tabStop) := by
    rw [TabContents.tabOrder, List.filter_map]
    exact (sortByKey_perm _ _).map _
  refine ⟨fun count => ?_, stops, ?_, ?_⟩
  · rw [represents.visit_eq, TabContents.tabOrder, List.length_map, List.getElem?_map]
  · refine ((stops.map _).nodup_iff).mpr (List.Sublist.nodup (List.filter_sublist.map _) ?_)
    rw [List.map_map]
    exact distinct
  · intro handle member
    rcases List.mem_map.mp member with ⟨entry, inTour, rfl⟩
    exact ⟨represents.prev_next inTour, represents.next_prev inTour⟩

theorem tabOrder_followed_group :
    ((new (.ofLists TabStopNode.key)).run
      [.beginGroup 2, .insert ⟨0, 0, true⟩, .endGroup, .insert ⟨1, 1, true⟩]).visit =
        fun count => [(⟨1, 1, true⟩ : FocusHandle), ⟨0, 0, true⟩][count % 2]? :=
  funext (tabOrder_followed (.ofLists TabStopNode.key)
    (.group 2 (.insert ⟨0, 0, true⟩ .nil) (.insert ⟨1, 1, true⟩ .nil)) rfl (by decide)).1

/-- A handle inserted again behind another one hides it: `next` leads to its first place
and goes on from its last. -/
theorem exists_visit_misses :
    ∃ (calls : List TabStopCall) (contents : TabContents) (handle : FocusHandle),
      calls.flatMap TabStopCall.operations = contents.operations ∧
      handle ∈ contents.tabOrder ∧
      ∀ count, ((new (.ofLists TabStopNode.key)).run calls).visit count ≠ some handle := by
  let calls : List TabStopCall :=
    [.insert ⟨0, 0, true⟩, .insert ⟨1, 0, true⟩, .insert ⟨0, 0, true⟩]
  let map := (new (.ofLists TabStopNode.key)).run calls
  refine ⟨calls, .insert ⟨0, 0, true⟩ (.insert ⟨1, 0, true⟩ (.insert ⟨0, 0, true⟩ .nil)),
    ⟨1, 0, true⟩, rfl, by decide, fun count => ?_⟩
  have stops : map.stops = [⟨[0], 0, true⟩, ⟨[0], 1, true⟩, ⟨[0], 2, true⟩] := by decide
  have first : map.nextOfNone = some ⟨0, 0, true⟩ := by
    rw [nextOfNone_eq, stops]
    rfl
  have again : map.next (some 0) = some ⟨0, 0, true⟩ := by
    have last : map.stops[2]? = some ⟨[0], 2, true⟩ := by
      rw [stops]
      rfl
    rw [next_stop last rfl, stops]
    rfl
  have stays : map.visit count = some ⟨0, 0, true⟩ := by
    induction count with
    | zero => exact first
    | succ count ih =>
        rw [visit, ih]
        exact again
  rw [stays]
  decide

end TabStopMap

end Gpui
