import Mathlib

/-!
# The element arena

Elements of a frame are allocated one after the other in chunks, which are kept and used
again after the arena is cleared.  Every chunk that allocation has not reached yet is at its
start, and everything that is alive lies below the offset of its chunk: so an allocation,
which begins at the offset, takes bytes that nothing alive has.
-/

namespace Gpui

/-- What a type asks of the allocator: the alignment is a power of two. -/
structure Layout where
  size : Nat
  align : Nat
  powerOfTwo : ∃ exponent, align = 2 ^ exponent

theorem Layout.align_pos (layout : Layout) : 0 < layout.align := by
  rcases layout.powerOfTwo with ⟨exponent, equal⟩
  rw [equal]
  exact Nat.two_pow_pos exponent

/-- `align_offset`: the least offset at which an address is aligned. -/
def Layout.alignOffset (layout : Layout) (address : Nat) : Nat :=
  (layout.align - address % layout.align) % layout.align

theorem Layout.dvd_add_alignOffset (layout : Layout) (address : Nat) :
    layout.align ∣ address + layout.alignOffset address := by
  unfold alignOffset
  apply Nat.dvd_of_mod_eq_zero
  have small := Nat.mod_lt address layout.align_pos
  rw [Nat.add_mod, Nat.mod_mod]
  by_cases aligned : address % layout.align = 0
  · rw [aligned, Nat.sub_zero, Nat.mod_self, Nat.add_zero, Nat.zero_mod]
  · rw [Nat.mod_eq_of_lt (by omega : layout.align - address % layout.align < layout.align),
      Nat.add_sub_cancel' small.le, Nat.mod_self]

/-- The bytes from an address on. -/
def bytesFrom (address size : Nat) : Set Nat :=
  Set.Ico address (address + size)

theorem disjoint_bytesFrom {address size other otherSize : Nat} (below : address + size ≤ other) :
    Disjoint (bytesFrom address size) (bytesFrom other otherSize) := by
  apply Set.disjoint_left.mpr
  intro byte inFirst inSecond
  exact absurd (inFirst.2.trans_le below) (not_lt.mpr inSecond.1)

theorem bytesFrom_subset {address size other otherSize : Nat} (start : other ≤ address)
    (stop : address + size ≤ other + otherSize) :
    bytesFrom address size ⊆ bytesFrom other otherSize :=
  Set.Ico_subset_Ico start stop

/-- The blocks that the allocator gives for chunks, in the order in which it is asked: none
is null, and no two have a byte in common. -/
structure Blocks (chunkSize : ℕ+) where
  start : Nat → Nat
  nonNull : ∀ ix, start ix ≠ 0
  apart : Pairwise fun ix other =>
    Disjoint (bytesFrom (start ix) chunkSize) (bytesFrom (start other) chunkSize)

/-- Memory that goes on for ever has the blocks in a row. -/
theorem nonempty_blocks (chunkSize : ℕ+) : Nonempty (Blocks chunkSize) := by
  constructor
  apply Blocks.mk (fun ix => 1 + ix * chunkSize)
  · intro ix
    omega
  · apply (pairwise_disjoint_on _).mpr
    intro ix other less
    apply disjoint_bytesFrom
    rw [add_assoc, ← Nat.succ_mul]
    exact Nat.add_le_add_left (Nat.mul_le_mul_right _ less) _

/-- A chunk: the offset is where the next allocation is tried. -/
structure Chunk where
  start : Nat
  «end» : Nat
  offset : Nat
  start_le : start ≤ offset
  le_end : offset ≤ «end»

namespace Chunk

variable {chunkSize : ℕ+}

def new (blocks : Blocks chunkSize) (ix : Nat) : Chunk where
  start := blocks.start ix
  «end» := blocks.start ix + chunkSize
  offset := blocks.start ix
  start_le := le_rfl
  le_end := Nat.le_add_right _ _

/-- Where an allocation of the layout begins. -/
def aligned (self : Chunk) (layout : Layout) : Nat :=
  self.offset + layout.alignOffset self.offset

theorem offset_le_aligned (self : Chunk) (layout : Layout) : self.offset ≤ self.aligned layout :=
  Nat.le_add_right _ _

theorem start_le_next (self : Chunk) (layout : Layout) :
    self.start ≤ self.aligned layout + layout.size :=
  self.start_le.trans ((self.offset_le_aligned layout).trans (Nat.le_add_right _ _))

def moveTo (self : Chunk) (layout : Layout)
    (fits : self.aligned layout + layout.size ≤ self.end) : Chunk where
  start := self.start
  «end» := self.end
  offset := self.aligned layout + layout.size
  start_le := self.start_le_next layout
  le_end := fits

/-- A pointer that is not null. -/
def nonNull (address : Nat) : Option Nat :=
  if address = 0 then none else some address

def allocate (self : Chunk) (layout : Layout) : Option Nat × Chunk :=
  if fits : self.aligned layout + layout.size ≤ self.end then
    (nonNull (self.aligned layout), self.moveTo layout fits)
  else
    (none, self)

def reset (self : Chunk) : Chunk where
  start := self.start
  «end» := self.end
  offset := self.start
  start_le := le_rfl
  le_end := self.start_le.trans self.le_end

@[simp]
theorem start_allocate (self : Chunk) (layout : Layout) :
    (self.allocate layout).2.start = self.start := by
  unfold allocate
  by_cases fits : self.aligned layout + layout.size ≤ self.end
  · rw [dif_pos fits, moveTo]
  · rw [dif_neg fits]

@[simp]
theorem end_allocate (self : Chunk) (layout : Layout) :
    (self.allocate layout).2.end = self.end := by
  unfold allocate
  by_cases fits : self.aligned layout + layout.size ≤ self.end
  · rw [dif_pos fits, moveTo]
  · rw [dif_neg fits]

/-- The offset never falls. -/
theorem offset_le_allocate (self : Chunk) (layout : Layout) :
    self.offset ≤ (self.allocate layout).2.offset := by
  unfold allocate
  by_cases fits : self.aligned layout + layout.size ≤ self.end
  · rw [dif_pos fits]
    exact (self.offset_le_aligned layout).trans (Nat.le_add_right _ _)
  · rw [dif_neg fits]

/-- What is given is aligned, and lies between the offset before and the offset after. -/
theorem allocate_spec {self : Chunk} {layout : Layout} {ptr : Nat}
    (given : (self.allocate layout).1 = some ptr) :
    layout.align ∣ ptr ∧ self.offset ≤ ptr ∧
      ptr + layout.size = (self.allocate layout).2.offset := by
  unfold allocate at given ⊢
  by_cases fits : self.aligned layout + layout.size ≤ self.end
  · rw [dif_pos fits] at given ⊢
    change nonNull (self.aligned layout) = some ptr at given
    unfold nonNull at given
    by_cases null : self.aligned layout = 0
    · rw [if_pos null] at given
      cases given
    · rw [if_neg null] at given
      cases given
      constructor
      · exact layout.dvd_add_alignOffset _
      · exact ⟨self.offset_le_aligned layout, rfl⟩
  · rw [dif_neg fits] at given
    cases given

end Chunk

/-- What the arena has to drop: the value at an address, of the type that has the layout. -/
structure ArenaElement where
  value : Nat
  layout : Layout

def ArenaElement.bytes (self : ArenaElement) : Set Nat :=
  bytesFrom self.value self.layout.size

/-- A pointer into the arena, with the flag that says whether it may still be followed. -/
structure ArenaBox where
  ptr : Nat
  layout : Layout
  valid : Nat

def ArenaBox.element (self : ArenaBox) : ArenaElement where
  value := self.ptr
  layout := self.layout

/-- The arena.  The flags are the cells that it shares with its boxes, of which the last
made is its own. -/
structure Arena (chunkSize : ℕ+) where
  chunks : List Chunk
  elements : List ArenaElement
  flags : List Bool
  valid : Nat
  currentChunkIndex : Nat
  current_lt : currentChunkIndex < chunks.length

namespace Arena

variable {chunkSize : ℕ+}

def new (blocks : Blocks chunkSize) : Arena chunkSize where
  chunks := [Chunk.new blocks 0]
  elements := []
  flags := [true]
  valid := 0
  currentChunkIndex := 0
  current_lt := Nat.zero_lt_one

def resetUpto (chunks : List Chunk) (current : Nat) : List Chunk :=
  chunks.mapIdx fun ix chunk => if ix ≤ current then chunk.reset else chunk

theorem length_resetUpto (chunks : List Chunk) (current : Nat) :
    (resetUpto chunks current).length = chunks.length :=
  List.length_mapIdx

theorem resetUpto_pos (self : Arena chunkSize) :
    0 < (resetUpto self.chunks self.currentChunkIndex).length := by
  rw [length_resetUpto]
  exact Nat.zero_lt_of_lt self.current_lt

def clear (self : Arena chunkSize) : Arena chunkSize where
  chunks := resetUpto self.chunks self.currentChunkIndex
  elements := []
  flags := self.flags.set self.valid false ++ [true]
  valid := self.flags.length
  currentChunkIndex := 0
  current_lt := self.resetUpto_pos

def currentChunk (self : Arena chunkSize) : Chunk :=
  self.chunks.get ⟨self.currentChunkIndex, self.current_lt⟩

theorem current_lt_set (self : Arena chunkSize) (chunk : Chunk) :
    self.currentChunkIndex < (self.chunks.set self.currentChunkIndex chunk).length := by
  rw [List.length_set]
  exact self.current_lt

def setCurrentChunk (self : Arena chunkSize) (chunk : Chunk) : Arena chunkSize :=
  { self with
    chunks := self.chunks.set self.currentChunkIndex chunk
    current_lt := self.current_lt_set chunk }

/-- An allocation is tried in the current chunk. -/
def allocateInCurrent (self : Arena chunkSize) (layout : Layout) :
    Option Nat × Arena chunkSize :=
  ((self.currentChunk.allocate layout).1,
    self.setCurrentChunk (self.currentChunk.allocate layout).2)

theorem next_lt_append (self : Arena chunkSize) (chunk : Chunk) :
    self.currentChunkIndex + 1 < (self.chunks ++ [chunk]).length := by
  rw [List.length_append, List.length_singleton]
  exact Nat.succ_lt_succ self.current_lt

/-- The next chunk becomes the current one, made where there is none. -/
def nextChunk (self : Arena chunkSize) (blocks : Blocks chunkSize) : Arena chunkSize :=
  if next : self.currentChunkIndex + 1 < self.chunks.length then
    { self with
      currentChunkIndex := self.currentChunkIndex + 1
      current_lt := next }
  else
    { self with
      chunks := self.chunks ++ [Chunk.new blocks self.chunks.length]
      currentChunkIndex := self.currentChunkIndex + 1
      current_lt := self.next_lt_append _ }

/-- The value is written where there is room for it, unless the closure that computes it
panics. -/
def write (self : Arena chunkSize) (layout : Layout) (returns : Bool) (ptr : Nat) :
    Option ArenaBox × Arena chunkSize :=
  if returns then
    (some { ptr, layout, valid := self.valid },
      { self with elements := self.elements ++ [{ value := ptr, layout }] })
  else
    (none, self)

/-- No box where the allocation panics. -/
def alloc (self : Arena chunkSize) (blocks : Blocks chunkSize) (layout : Layout)
    (returns : Bool) : Option ArenaBox × Arena chunkSize :=
  match self.allocateInCurrent layout with
  | (some ptr, arena) => arena.write layout returns ptr
  | (none, arena) =>
      match (arena.nextChunk blocks).allocateInCurrent layout with
      | (some ptr, arena) => arena.write layout returns ptr
      | (none, arena) => (none, arena)

/-- The assertion with which a box is followed. -/
def Follows (self : Arena chunkSize) (box : ArenaBox) : Prop :=
  self.flags[box.valid]? = some true

instance (self : Arena chunkSize) (box : ArenaBox) : Decidable (self.Follows box) :=
  inferInstanceAs (Decidable (_ = _))

/-! ## What the chunks keep -/

/-- The chunks are the blocks of the allocator, those behind the current one are at their
start, and what is alive lies apart below the offsets. -/
structure Sound (blocks : Blocks chunkSize) (arena : Arena chunkSize) : Prop where
  placed : ∀ {ix chunk}, arena.chunks[ix]? = some chunk →
    chunk.start = blocks.start ix ∧ chunk.end = blocks.start ix + chunkSize
  untouched : ∀ {ix chunk}, arena.chunks[ix]? = some chunk → arena.currentChunkIndex < ix →
    chunk.offset = chunk.start
  aligned : ∀ {element}, element ∈ arena.elements → element.layout.align ∣ element.value
  inside : ∀ {element}, element ∈ arena.elements → ∃ ix chunk,
    arena.chunks[ix]? = some chunk ∧ ix ≤ arena.currentChunkIndex ∧
      chunk.start ≤ element.value ∧ element.value + element.layout.size ≤ chunk.offset
  apart : arena.elements.Pairwise fun element other => Disjoint element.bytes other.bytes

/-- Bytes of the current chunk, below its offset, that nothing alive has. -/
structure Fresh (arena : Arena chunkSize) (layout : Layout) (ptr : Nat) : Prop where
  aligned : layout.align ∣ ptr
  inside : ∃ chunk, arena.chunks[arena.currentChunkIndex]? = some chunk ∧
    chunk.start ≤ ptr ∧ ptr + layout.size ≤ chunk.offset
  apart : ∀ {element}, element ∈ arena.elements →
    Disjoint element.bytes (bytesFrom ptr layout.size)

variable {blocks : Blocks chunkSize} {self : Arena chunkSize}

theorem Sound.new : Sound blocks (new blocks) where
  placed {ix chunk} found := by
    cases ix with
    | zero =>
        cases found
        exact ⟨rfl, rfl⟩
    | succ ix => cases found
  untouched {ix chunk} found behind := by
    cases ix with
    | zero => exact absurd behind (lt_irrefl _)
    | succ ix => cases found
  aligned member := by cases member
  inside member := by cases member
  apart := List.Pairwise.nil

theorem getElem?_currentChunk (self : Arena chunkSize) :
    self.chunks[self.currentChunkIndex]? = some self.currentChunk :=
  List.getElem?_eq_getElem self.current_lt

theorem getElem?_setCurrentChunk (self : Arena chunkSize) (chunk : Chunk) (ix : Nat) :
    (self.setCurrentChunk chunk).chunks[ix]? =
      if ix = self.currentChunkIndex then some chunk else self.chunks[ix]? := by
  rw [setCurrentChunk]
  by_cases current : ix = self.currentChunkIndex
  · rw [if_pos current, current]
    exact List.getElem?_set_self self.current_lt
  · rw [if_neg current]
    exact List.getElem?_set_ne (Ne.symm current)

/-- The current chunk is replaced by itself with a higher offset. -/
theorem Sound.setCurrentChunk (sound : Sound blocks self) {chunk : Chunk}
    (start : chunk.start = self.currentChunk.start) (stop : chunk.end = self.currentChunk.end)
    (higher : self.currentChunk.offset ≤ chunk.offset) :
    Sound blocks (self.setCurrentChunk chunk) where
  placed {ix found} at_ix := by
    rw [getElem?_setCurrentChunk] at at_ix
    by_cases current : ix = self.currentChunkIndex
    · rw [if_pos current] at at_ix
      cases at_ix
      rw [start, stop, current]
      exact sound.placed self.getElem?_currentChunk
    · rw [if_neg current] at at_ix
      exact sound.placed at_ix
  untouched {ix found} at_ix behind := by
    have other : ix ≠ self.currentChunkIndex := ne_of_gt behind
    rw [getElem?_setCurrentChunk, if_neg other] at at_ix
    exact sound.untouched at_ix behind
  aligned member := sound.aligned member
  inside {element} member := by
    rcases sound.inside member with ⟨ix, found, at_ix, reached, above, below⟩
    by_cases current : ix = self.currentChunkIndex
    · rw [current, getElem?_currentChunk] at at_ix
      cases at_ix
      have here : (self.setCurrentChunk chunk).chunks[ix]? = some chunk := by
        rw [getElem?_setCurrentChunk, if_pos current]
      exact ⟨ix, chunk, here, reached, start.le.trans above, below.trans higher⟩
    · have here : (self.setCurrentChunk chunk).chunks[ix]? = some found := by
        rw [getElem?_setCurrentChunk, if_neg current, at_ix]
      exact ⟨ix, found, here, reached, above, below⟩
  apart := sound.apart

theorem Sound.allocateInCurrent (sound : Sound blocks self) (layout : Layout) :
    Sound blocks (self.allocateInCurrent layout).2 :=
  sound.setCurrentChunk (Chunk.start_allocate _ _) (Chunk.end_allocate _ _)
    (Chunk.offset_le_allocate _ _)

/-- Between the offset before and the offset after there is nothing alive: what is alive in
the current chunk lies below, and the other chunks are elsewhere. -/
theorem Sound.fresh (sound : Sound blocks self) {layout : Layout} {ptr : Nat}
    (given : (self.allocateInCurrent layout).1 = some ptr) :
    Fresh (self.allocateInCurrent layout).2 layout ptr := by
  rcases Chunk.allocate_spec given with ⟨aligned, above, next⟩
  have start : (self.currentChunk.allocate layout).2.start ≤ ptr :=
    (Chunk.start_allocate _ _).le.trans (self.currentChunk.start_le.trans above)
  constructor
  · exact aligned
  · apply Exists.intro (self.currentChunk.allocate layout).2
    constructor
    · exact (getElem?_setCurrentChunk self _ _).trans (if_pos rfl)
    · exact ⟨start, next.le⟩
  · intro element member
    rcases sound.inside member with ⟨ix, found, at_ix, _, inFront, below⟩
    by_cases current : ix = self.currentChunkIndex
    · rw [current, getElem?_currentChunk] at at_ix
      cases at_ix
      exact disjoint_bytesFrom (below.trans above)
    · rcases sound.placed at_ix with ⟨foundStart, foundEnd⟩
      rcases sound.placed self.getElem?_currentChunk with ⟨currentStart, currentEnd⟩
      have stop : ptr + layout.size ≤ self.currentChunk.end := by
        rw [next, ← Chunk.end_allocate self.currentChunk layout]
        exact Chunk.le_end _
      apply (blocks.apart current).mono
      · apply bytesFrom_subset
        · exact foundStart.ge.trans inFront
        · exact (below.trans found.le_end).trans foundEnd.le
      · apply bytesFrom_subset
        · exact currentStart.ge.trans (self.currentChunk.start_le.trans above)
        · exact stop.trans currentEnd.le

/-- Allocation moves to a chunk that is at its start. -/
theorem Sound.nextChunk (sound : Sound blocks self) : Sound blocks (self.nextChunk blocks) := by
  unfold Arena.nextChunk
  by_cases next : self.currentChunkIndex + 1 < self.chunks.length
  · rw [dif_pos next]
    constructor
    · exact sound.placed
    · intro ix chunk found behind
      exact sound.untouched found (Nat.lt_of_succ_lt behind)
    · exact sound.aligned
    · intro element member
      rcases sound.inside member with ⟨ix, chunk, found, reached, within⟩
      exact ⟨ix, chunk, found, Nat.le_succ_of_le reached, within⟩
    · exact sound.apart
  · rw [dif_neg next]
    have last : self.chunks.length = self.currentChunkIndex + 1 :=
      le_antisymm (not_lt.mp next) self.current_lt
    constructor
    · intro ix chunk found
      rcases lt_or_ge ix self.chunks.length with before | after
      · rw [List.getElem?_append_left before] at found
        exact sound.placed found
      · rw [List.getElem?_append_right after, List.getElem?_singleton] at found
        by_cases here : ix - self.chunks.length = 0
        · rw [if_pos here] at found
          cases found
          have same : self.chunks.length = ix := by omega
          rw [same]
          exact ⟨rfl, rfl⟩
        · rw [if_neg here] at found
          cases found
    · intro ix chunk found behind
      have inside := (List.getElem?_eq_some_iff.mp found).1
      rw [List.length_append, List.length_singleton, last] at inside
      exact absurd inside (not_lt.mpr behind)
    · exact sound.aligned
    · intro element member
      rcases sound.inside member with ⟨ix, chunk, found, reached, within⟩
      have before := (List.getElem?_eq_some_iff.mp found).1
      have kept : (self.chunks ++ [Chunk.new blocks self.chunks.length])[ix]? = some chunk := by
        rw [List.getElem?_append_left before]
        exact found
      exact ⟨ix, chunk, kept, Nat.le_succ_of_le reached, within⟩
    · exact sound.apart

theorem Sound.write (sound : Sound blocks self) {layout : Layout} {ptr : Nat}
    (fresh : Fresh self layout ptr) (returns : Bool) :
    Sound blocks (self.write layout returns ptr).2 := by
  cases returns with
  | false => exact sound
  | true =>
      constructor
      · exact sound.placed
      · exact sound.untouched
      · intro element member
        rcases List.mem_append.mp member with old | new
        · exact sound.aligned old
        · cases List.mem_singleton.mp new
          exact fresh.aligned
      · intro element member
        rcases List.mem_append.mp member with old | new
        · exact sound.inside old
        · cases List.mem_singleton.mp new
          rcases fresh.inside with ⟨chunk, found, above, below⟩
          exact ⟨self.currentChunkIndex, chunk, found, le_rfl, above, below⟩
      · apply List.pairwise_append.mpr
        constructor
        · exact sound.apart
        · constructor
          · exact List.pairwise_singleton _ _
          · intro element member other isNew
            cases List.mem_singleton.mp isNew
            exact fresh.apart member

/-- An allocation is served by the current chunk, or tried in the next one. -/
theorem alloc_cases (self : Arena chunkSize) (blocks : Blocks chunkSize) (layout : Layout)
    (returns : Bool) :
    ∃ before, (before = self ∨ before = (self.allocateInCurrent layout).2.nextChunk blocks) ∧
      ((∃ ptr, (before.allocateInCurrent layout).1 = some ptr ∧
          self.alloc blocks layout returns =
            (before.allocateInCurrent layout).2.write layout returns ptr) ∨
        self.alloc blocks layout returns = (none, (before.allocateInCurrent layout).2)) := by
  unfold Arena.alloc
  rcases first : self.allocateInCurrent layout with ⟨_ | ptr, arena⟩
  · apply Exists.intro (arena.nextChunk blocks)
    constructor
    · exact .inr rfl
    · rcases second : (arena.nextChunk blocks).allocateInCurrent layout with ⟨_ | ptr, again⟩
      · right
        simp only [second]
      · left
        apply Exists.intro ptr
        simp only [second, true_and]
  · apply Exists.intro self
    constructor
    · exact .inl rfl
    · left
      apply Exists.intro ptr
      simp only [first, true_and]

theorem Sound.alloc (sound : Sound blocks self) (layout : Layout) (returns : Bool) :
    Sound blocks (self.alloc blocks layout returns).2 := by
  rcases self.alloc_cases blocks layout returns with ⟨before, isBefore, result⟩
  have soundBefore : Sound blocks before := by
    rcases isBefore with rfl | rfl
    · exact sound
    · exact (sound.allocateInCurrent layout).nextChunk
  rcases result with ⟨ptr, given, equal⟩ | equal
  · rw [equal]
    exact (soundBefore.allocateInCurrent layout).write (soundBefore.fresh given) returns
  · rw [equal]
    exact soundBefore.allocateInCurrent layout

theorem getElem?_resetUpto {chunks : List Chunk} {current ix : Nat} {chunk : Chunk}
    (found : (resetUpto chunks current)[ix]? = some chunk) : ∃ old, chunks[ix]? = some old ∧
      chunk = if ix ≤ current then old.reset else old := by
  rw [resetUpto, List.getElem?_mapIdx] at found
  rcases Option.map_eq_some_iff.mp found with ⟨old, inOld, equal⟩
  exact ⟨old, inOld, equal.symm⟩

/-- After a clear every chunk is at its start. -/
theorem Sound.offset_clear (sound : Sound blocks self) {ix : Nat} {chunk : Chunk}
    (found : self.clear.chunks[ix]? = some chunk) : chunk.offset = chunk.start := by
  rcases getElem?_resetUpto found with ⟨old, inOld, equal⟩
  by_cases reached : ix ≤ self.currentChunkIndex
  · rw [equal, if_pos reached]
    rfl
  · rw [equal, if_neg reached]
    exact sound.untouched inOld (not_le.mp reached)

theorem Sound.clear (sound : Sound blocks self) : Sound blocks self.clear where
  placed {ix chunk} found := by
    rcases getElem?_resetUpto found with ⟨old, inOld, equal⟩
    by_cases reached : ix ≤ self.currentChunkIndex
    · rw [equal, if_pos reached]
      have placed := sound.placed inOld
      exact placed
    · rw [equal, if_neg reached]
      exact sound.placed inOld
  untouched found _ := sound.offset_clear found
  aligned member := by cases member
  inside member := by cases member
  apart := List.Pairwise.nil

/-! ## The boxes that are alive -/

/-- Allocation and clearing as they are called, with whether the closure returns. -/
inductive Event where
  | alloc (layout : Layout) (returns : Bool)
  | clear

/-- An arena in use, with the boxes that it has given, and those since the last clear. -/
structure Session (chunkSize : ℕ+) where
  arena : Arena chunkSize
  boxes : List ArenaBox
  live : List ArenaBox

namespace Session

def start (blocks : Blocks chunkSize) : Session chunkSize where
  arena := Arena.new blocks
  boxes := []
  live := []

def step (blocks : Blocks chunkSize) (self : Session chunkSize) : Event → Session chunkSize
  | .alloc layout returns =>
      let given := self.arena.alloc blocks layout returns
      { arena := given.2
        boxes := self.boxes ++ given.1.toList
        live := self.live ++ given.1.toList }
  | .clear => { self with arena := self.arena.clear, live := [] }

def run (blocks : Blocks chunkSize) (events : List Event) : Session chunkSize :=
  events.foldl (step blocks) (start blocks)

/-- What is alive is what the arena has to drop; the flags of older boxes are off. -/
structure Tracked (session : Session chunkSize) : Prop where
  elements : session.arena.elements = session.live.map ArenaBox.element
  flags : session.arena.flags = List.replicate session.arena.valid false ++ [true]
  older : ∀ {box}, box ∈ session.boxes → box.valid ≤ session.arena.valid
  followed : session.live = session.boxes.filter fun box => box.valid = session.arena.valid

end Session

/-- An allocation adds the box that it gives. -/
theorem alloc_spec (self : Arena chunkSize) (blocks : Blocks chunkSize) (layout : Layout)
    (returns : Bool) :
    (self.alloc blocks layout returns).2.elements =
        self.elements ++ (self.alloc blocks layout returns).1.toList.map ArenaBox.element ∧
      (self.alloc blocks layout returns).2.flags = self.flags ∧
      (self.alloc blocks layout returns).2.valid = self.valid ∧
      ∀ box ∈ (self.alloc blocks layout returns).1, box.valid = self.valid := by
  have moved : ∀ before, (before = self ∨
      before = (self.allocateInCurrent layout).2.nextChunk blocks) →
        before.elements = self.elements ∧ before.flags = self.flags ∧
          before.valid = self.valid := by
    rintro before (rfl | rfl)
    · exact ⟨rfl, rfl, rfl⟩
    · unfold nextChunk
      by_cases next : (self.allocateInCurrent layout).2.currentChunkIndex + 1 <
          (self.allocateInCurrent layout).2.chunks.length
      · rw [dif_pos next]
        exact ⟨rfl, rfl, rfl⟩
      · rw [dif_neg next]
        exact ⟨rfl, rfl, rfl⟩
  rcases self.alloc_cases blocks layout returns with ⟨before, isBefore, result⟩
  rcases moved before isBefore with ⟨elements, flags, valid⟩
  rcases result with ⟨ptr, _, equal⟩ | equal
  · rw [equal]
    cases returns with
    | false => exact ⟨elements.trans (List.append_nil _).symm, flags, valid, nofun⟩
    | true =>
        constructor
        · exact congrArg (· ++ [_]) elements
        · constructor
          · exact flags
          · constructor
            · exact valid
            · intro box isBox
              cases Option.mem_some_iff.mp isBox
              exact valid
  · rw [equal]
    exact ⟨elements.trans (List.append_nil _).symm, flags, valid, nofun⟩

namespace Session

variable {session : Session chunkSize}

theorem Tracked.start (blocks : Blocks chunkSize) : Tracked (start blocks) where
  elements := rfl
  flags := rfl
  older member := by cases member
  followed := rfl

theorem Tracked.clear (tracked : Tracked session) (blocks : Blocks chunkSize) :
    Tracked (session.step blocks .clear) := by
  have length : session.arena.flags.length = session.arena.valid + 1 := by
    rw [tracked.flags, List.length_append, List.length_replicate, List.length_singleton]
  constructor
  · rfl
  · change session.arena.flags.set session.arena.valid false ++ [true] =
      List.replicate session.arena.flags.length false ++ [true]
    rw [length, tracked.flags, List.set_append_right _ _ List.length_replicate.le,
      List.length_replicate, Nat.sub_self, List.set_cons_zero, List.replicate_succ']
  · intro box member
    change box.valid ≤ session.arena.flags.length
    rw [length]
    exact Nat.le_succ_of_le (tracked.older member)
  · symm
    apply List.filter_eq_nil_iff.mpr
    intro box member
    change ¬ decide (box.valid = session.arena.flags.length) = true
    rw [decide_eq_true_eq, length]
    exact ne_of_lt (Nat.lt_succ_of_le (tracked.older member))

theorem Tracked.alloc (tracked : Tracked session) (blocks : Blocks chunkSize)
    (layout : Layout) (returns : Bool) : Tracked (session.step blocks (.alloc layout returns)) := by
  rcases session.arena.alloc_spec blocks layout returns with ⟨elements, flags, valid, new⟩
  constructor
  · change (session.arena.alloc blocks layout returns).2.elements = _
    rw [elements, tracked.elements, ← List.map_append]
    rfl
  · change (session.arena.alloc blocks layout returns).2.flags =
      List.replicate (session.arena.alloc blocks layout returns).2.valid false ++ [true]
    rw [flags, valid, tracked.flags]
  · intro box member
    change box.valid ≤ (session.arena.alloc blocks layout returns).2.valid
    rw [valid]
    rcases List.mem_append.mp member with old | isNew
    · exact tracked.older old
    · exact (new box (Option.mem_toList.mp isNew)).le
  · change session.live ++ _ = (session.boxes ++ _).filter fun box =>
      box.valid = (session.arena.alloc blocks layout returns).2.valid
    rw [valid, List.filter_append, ← tracked.followed]
    congr 1
    symm
    apply List.filter_eq_self.mpr
    intro box isNew
    exact decide_eq_true (new box (Option.mem_toList.mp isNew))

/-- The chunks and the boxes agree in whatever order the arena is used. -/
theorem sound_run (blocks : Blocks chunkSize) (events : List Event) :
    Sound blocks (run blocks events).arena ∧ Tracked (run blocks events) := by
  induction events using List.reverseRecOn with
  | nil => exact ⟨Sound.new, Tracked.start blocks⟩
  | append_singleton events event ih =>
      rcases ih with ⟨sound, tracked⟩
      rw [run, List.foldl_append]
      cases event with
      | alloc layout returns =>
          exact ⟨Sound.alloc sound layout returns, tracked.alloc blocks layout returns⟩
      | clear => exact ⟨Sound.clear sound, tracked.clear blocks⟩

/-- What is alive is aligned, within one chunk, and apart from everything else that is alive;
a clear brings every chunk back to its start. -/
theorem run_live (blocks : Blocks chunkSize) (events : List Event) :
    (∀ box ∈ (run blocks events).live, box.layout.align ∣ box.ptr ∧
      ∃ chunk ∈ (run blocks events).arena.chunks,
        chunk.start ≤ box.ptr ∧ box.ptr + box.layout.size ≤ chunk.end) ∧
    (run blocks events).live.Pairwise (fun box other =>
      Disjoint (bytesFrom box.ptr box.layout.size) (bytesFrom other.ptr other.layout.size)) ∧
    ∀ chunk ∈ (run blocks events).arena.clear.chunks, chunk.offset = chunk.start := by
  rcases sound_run blocks events with ⟨sound, tracked⟩
  constructor
  · intro box member
    have element : box.element ∈ (run blocks events).arena.elements := by
      rw [tracked.elements]
      exact List.mem_map_of_mem member
    constructor
    · exact sound.aligned element
    · rcases sound.inside element with ⟨ix, chunk, found, _, above, below⟩
      exact ⟨chunk, List.mem_of_getElem? found, above, below.trans chunk.le_end⟩
  · constructor
    · have apart := sound.apart
      rw [tracked.elements, List.pairwise_map] at apart
      exact apart
    · intro chunk member
      rcases List.getElem?_of_mem member with ⟨ix, found⟩
      exact sound.offset_clear found

/-- Of all boxes that were ever given, those that may be followed are the ones given since the
last clear. -/
theorem live_eq_filter (blocks : Blocks chunkSize) (events : List Event) :
    (run blocks events).live =
      (run blocks events).boxes.filter fun box => (run blocks events).arena.Follows box := by
  rcases sound_run blocks events with ⟨_, tracked⟩
  rw [tracked.followed]
  apply List.filter_congr
  intro box member
  apply decide_eq_decide.mpr
  unfold Follows
  rw [tracked.flags]
  rcases (tracked.older member).lt_or_eq with older | same
  · rw [List.getElem?_append_left (older.trans_eq List.length_replicate.symm),
      List.getElem?_replicate_of_lt older]
    exact iff_of_false older.ne nofun
  · rw [same, List.getElem?_append_right List.length_replicate.le, List.length_replicate,
      Nat.sub_self]
    exact iff_of_true rfl rfl

end Session

end Arena

end Gpui
