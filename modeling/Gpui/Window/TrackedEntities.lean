import Gpui.Window.TrackingSteps

/-!
# Accessed entities stay tracked

Where the prepaint of a cached view reads nothing that was read before in the frame, and
its paint and what it defers read only what its prepaint read, the state of a view holds
all that its render and the renders in it read.  So no frame that reuses the view loses
any of it.
-/

namespace Gpui

open Gpui.Library

variable {E V W : Type}

namespace EntityTracking

variable [DecidableEq E] [DecidableEq V] [DecidableEq W]

/-! ## The invariant -/

/-- What a state holds of what its render and the renders in it read. -/
def Holds (ledger : ReadLedger E W) (nextRender render : Nat) (entities : E → Bool) : Prop :=
  render < nextRender ∧ ∀ shown entity, shown = render ∨ shown ∈ ledger.inside render →
    ledger.reads shown entity = true → entities entity = true

structure Accounted (tracking : EntityTracking E V W) (ledger : ReadLedger E W) : Prop where
  idle : (∀ window, tracking.draw ≠ .drawing window) → tracking.calls = []
  first : tracking.firstRender ≤ tracking.nextRender
  calls : ∀ call ∈ tracking.calls,
    tracking.firstRender ≤ call.render ∧ call.render < tracking.nextRender
  reads : ∀ {render entity}, ledger.reads render entity = true → render < tracking.nextRender
  inside : ∀ {outer render}, render ∈ ledger.inside outer →
    outer < tracking.nextRender ∧ render < tracking.nextRender ∧
      (outer < tracking.firstRender → render < tracking.firstRender)
  nested : ∀ {outer render inner}, render ∈ ledger.inside outer → inner ∈ ledger.inside render →
    inner ∈ ledger.inside outer
  shown : ∀ {window render}, render ∈ ledger.shown window → render < tracking.nextRender
  others : ∀ {window render}, tracking.draw ≠ .idle → tracking.draw.window ≠ some window →
    render ∈ ledger.shown window → render < tracking.firstRender
  accessed : ∀ {window render entity}, tracking.draw.window = some window →
    render ∈ ledger.shown window → ledger.reads render entity = true →
      tracking.accessedEntities entity = true
  tracked : ∀ {window render entity}, tracking.draw.window ≠ some window →
    render ∈ ledger.shown window → ledger.reads render entity = true →
      tracking.trackedEntities window entity = true
  states : tracking.EveryState (Holds ledger tracking.nextRender)
  detects : ∀ {render view accessedEntitiesStart prepaintStart refreshing},
    .prepainting render view accessedEntitiesStart prepaintStart refreshing ∈ tracking.calls →
      ∀ {shown entity}, shown = render ∨ shown ∈ ledger.inside render →
        ledger.reads shown entity = true →
          tracking.accessedEntities entity = true ∧ accessedEntitiesStart entity = false
  inverse : ∀ window entity,
    tracking.trackedEntities window entity = tracking.windowInvalidatorsByEntity entity window

omit [DecidableEq E] [DecidableEq V] [DecidableEq W] in
theorem accounted_new : Accounted (new : EntityTracking E V W) (.new : ReadLedger E W) where
  idle _ := rfl
  first := le_rfl
  calls := nofun
  reads := nofun
  inside := nofun
  nested := nofun
  shown := nofun
  others := nofun
  accessed := nofun
  tracked := nofun
  states := ⟨fun _ => ⟨nofun, nofun⟩, nofun⟩
  detects := nofun
  inverse _ _ := rfl

namespace Accounted

variable {self next : EntityTracking E V W} {ledger : ReadLedger E W}

omit [DecidableEq E] [DecidableEq V] [DecidableEq W] in
/-- The renders around running code belong to the frame that is drawn. -/
theorem around (accounted : Accounted self ledger) {render : Nat}
    (isAround : ledger.Around self.calls render) :
    self.firstRender ≤ render ∧ render < self.nextRender := by
  rcases isAround with ⟨call, running, rfl | nested⟩
  · exact accounted.calls call running
  · refine ⟨?_, (accounted.inside nested).1⟩
    by_contra older
    have old := (accounted.inside nested).2.2 (not_le.mp older)
    exact absurd (accounted.calls call running).1 (not_le.mpr old)

omit [DecidableEq E] [DecidableEq V] [DecidableEq W] in
theorem around_of_nested (accounted : Accounted self ledger) {outer render : Nat}
    (nested : render ∈ ledger.inside outer) (isAround : ledger.Around self.calls render) :
    ledger.Around self.calls outer := by
  rcases isAround with ⟨call, running, rfl | deeper⟩
  · exact ⟨call, running, Or.inr nested⟩
  · exact ⟨call, running, Or.inr (accounted.nested nested deeper)⟩

omit [DecidableEq V] in
theorem access (accounted : Accounted self ledger) {entity : E}
    (recorded : self.Recorded ledger entity) :
    Accounted (self.access entity) (ledger.read self.calls entity) := by
  have accessed_of (other : E) (was : self.accessedEntities other = true) :
      (self.access entity).accessedEntities other = true := by
    by_cases same : other = entity
    · simp [EntityTracking.access, same]
    · simpa [EntityTracking.access, same] using was
  have reads_iff (render : Nat) (other : E) :
      (ledger.read self.calls entity).reads render other = true ↔
        ledger.reads render other = true ∨
          other = entity ∧ ledger.Around self.calls render := by
    simp [ReadLedger.read]
  constructor
  case idle => exact accounted.idle
  case first => exact accounted.first
  case calls => exact accounted.calls
  case reads =>
    intro render other isRead
    rcases (reads_iff render other).mp isRead with before | ⟨-, isAround⟩
    · exact accounted.reads before
    · exact (accounted.around isAround).2
  case inside => exact accounted.inside
  case nested => exact accounted.nested
  case shown => exact accounted.shown
  case others => exact accounted.others
  case accessed =>
    intro window render other drawn isShown isRead
    rcases (reads_iff render other).mp isRead with before | ⟨rfl, -⟩
    · exact accessed_of other (accounted.accessed drawn isShown before)
    · simp [EntityTracking.access]
  case tracked =>
    intro window render other notDrawn isShown isRead
    rcases (reads_iff render other).mp isRead with before | ⟨-, isAround⟩
    · exact accounted.tracked notDrawn isShown before
    -- a render of another window is older than the frame
    · by_cases isIdle : self.draw = .idle
      · rcases isAround with ⟨call, running, -⟩
        rw [accounted.idle (by rw [isIdle]; nofun)] at running
        cases running
      · exact absurd (accounted.around isAround).1
          (not_le.mpr (accounted.others isIdle notDrawn isShown))
  case states =>
    apply (accounted.states.and recorded.2).mono
    rintro render entities ⟨⟨below, holds⟩, noted⟩
    refine ⟨below, fun shown other within isRead => ?_⟩
    rcases (reads_iff shown other).mp isRead with before | ⟨rfl, isAround⟩
    · exact holds shown other within before
    · apply noted
      rcases within with rfl | nested
      · exact isAround
      · exact accounted.around_of_nested nested isAround
  case detects =>
    intro render view start prepaintStart refreshing running shown other within isRead
    rcases (reads_iff shown other).mp isRead with before | ⟨rfl, -⟩
    · rcases accounted.detects running within before with ⟨isAccessed, isNew⟩
      exact ⟨accessed_of other isAccessed, isNew⟩
    · exact ⟨by simp [EntityTracking.access],
        recorded.1 render view start prepaintStart refreshing running⟩
  case inverse => exact accounted.inverse

omit [DecidableEq E] [DecidableEq V] in
theorem mem_inside_place {calls : List (ViewCall E V)} {window : W} {renders : List Nat}
    {outer render : Nat} :
    render ∈ (ledger.place calls window renders).inside outer ↔
      render ∈ ledger.inside outer ∨ ledger.Around calls outer ∧ render ∈ renders := by
  by_cases isAround : ledger.Around calls outer
  · simp [ReadLedger.place, isAround, or_comm]
  · simp [ReadLedger.place, isAround]

omit [DecidableEq E] [DecidableEq V] in
/-- Renders that are placed in a frame bring the renders in them along, and all that these
read has been noted. -/
theorem place (accounted : Accounted self ledger) {window : W} {renders : List Nat}
    (drawing : self.draw = .drawing window) (draw : next.draw = .drawing window)
    (books : SameBooks self next) (later : self.nextRender ≤ next.nextRender)
    (calls : ∀ call ∈ next.calls, next.firstRender ≤ call.render ∧ call.render < next.nextRender)
    (below : ∀ render ∈ renders, render < next.nextRender)
    (closed : ∀ render ∈ renders, ledger.inside render ⊆ renders)
    (accessed : ∀ entity, self.accessedEntities entity = true →
      next.accessedEntities entity = true)
    (noted : ∀ render ∈ renders, ∀ entity, ledger.reads render entity = true →
      next.accessedEntities entity = true)
    (states : next.EveryState fun render entities =>
      Holds ledger self.nextRender render entities ∧ (ledger.Around self.calls render →
        ∀ placed ∈ renders, ∀ entity, ledger.reads placed entity = true → entities entity = true))
    (detects : ∀ {render view accessedEntitiesStart prepaintStart refreshing},
      .prepainting render view accessedEntitiesStart prepaintStart refreshing ∈ next.calls →
        ∀ {shown entity}, shown = render ∨ shown ∈ ledger.inside render ∨ shown ∈ renders →
          ledger.reads shown entity = true → accessedEntitiesStart entity = false ∧
            next.accessedEntities entity = true) :
    Accounted next (ledger.place self.calls window renders) := by
  constructor
  case idle => exact fun notDrawing => absurd draw (notDrawing window)
  case first => exact books.firstRender ▸ accounted.first.trans later
  case calls => exact calls
  case reads => exact fun isRead => (accounted.reads isRead).trans_le later
  case inside =>
    intro outer render within
    rcases mem_inside_place.1 within with before | ⟨isAround, placed⟩
    · rcases accounted.inside before with ⟨outerBelow, renderBelow, old⟩
      exact ⟨outerBelow.trans_le later, renderBelow.trans_le later, books.firstRender ▸ old⟩
    · rcases accounted.around isAround with ⟨isNew, outerBelow⟩
      refine ⟨outerBelow.trans_le later, below render placed, fun older => ?_⟩
      exact absurd isNew (not_le.mpr (books.firstRender ▸ older))
  case nested =>
    intro outer render inner within deeper
    rcases mem_inside_place.1 within with before | ⟨isAround, placed⟩
    · rcases mem_inside_place.1 deeper with deeperBefore | ⟨renderAround, placed⟩
      · exact mem_inside_place.2 (Or.inl (accounted.nested before deeperBefore))
      · exact mem_inside_place.2
          (Or.inr ⟨accounted.around_of_nested before renderAround, placed⟩)
    · apply mem_inside_place.2
      rcases mem_inside_place.1 deeper with deeperBefore | ⟨-, innerPlaced⟩
      · exact Or.inr ⟨isAround, closed render placed deeperBefore⟩
      · exact Or.inr ⟨isAround, innerPlaced⟩
  case shown =>
    intro other render isShown
    by_cases same : other = window
    · subst same
      simp only [ReadLedger.place, Function.update_self, List.mem_append] at isShown
      rcases isShown with placed | before
      · exact below render placed
      · exact (accounted.shown before).trans_le later
    · simp only [ReadLedger.place, Function.update_of_ne same] at isShown
      exact (accounted.shown isShown).trans_le later
  case others =>
    intro other render _ notDrawn isShown
    have differs : other ≠ window := by
      rintro rfl
      exact notDrawn (by rw [draw]; rfl)
    simp only [ReadLedger.place, Function.update_of_ne differs] at isShown
    rw [books.firstRender]
    apply accounted.others _ _ isShown
    · intro isIdle
      rw [drawing] at isIdle
      cases isIdle
    · rwa [drawing, ← draw]
  case accessed =>
    intro other render entity drawn isShown isRead
    rw [draw] at drawn
    rcases drawn with ⟨⟩
    simp only [ReadLedger.place, Function.update_self, List.mem_append] at isShown
    rcases isShown with placed | before
    · exact noted render placed entity isRead
    · exact accessed entity (accounted.accessed (by rw [drawing]; rfl) before isRead)
  case tracked =>
    intro other render entity notDrawn isShown isRead
    have differs : other ≠ window := by
      rintro rfl
      exact notDrawn (by rw [draw]; rfl)
    simp only [ReadLedger.place, Function.update_of_ne differs] at isShown
    rw [books.tracked]
    exact accounted.tracked (by rwa [drawing, ← draw]) isShown isRead
  case states =>
    apply states.mono
    rintro render entities ⟨⟨renderBelow, holds⟩, ofPlaced⟩
    refine ⟨renderBelow.trans_le later, fun shown entity within isRead => ?_⟩
    rcases within with rfl | within
    · exact holds shown entity (Or.inl rfl) isRead
    · rcases mem_inside_place.1 within with before | ⟨isAround, placed⟩
      · exact holds shown entity (Or.inr before) isRead
      · exact ofPlaced isAround shown placed entity isRead
  case detects =>
    intro render view start prepaintStart refreshing running shown entity within isRead
    have within : shown = render ∨ shown ∈ ledger.inside render ∨ shown ∈ renders :=
      within.imp id fun nested => (mem_inside_place.1 nested).imp id And.right
    exact (detects running within isRead).symm
  case inverse =>
    intro other entity
    rw [books.tracked, books.invalidators]
    exact accounted.inverse other entity

omit [DecidableEq E] [DecidableEq V] in
theorem begins (accounted : Accounted self ledger) {window : W} {call : ViewCall E V}
    (drawing : self.draw = .drawing window) (draw : next.draw = .drawing window)
    (accessed : next.accessedEntities = self.accessedEntities)
    (calls : next.calls = call :: self.calls) (new : call.render = self.nextRender)
    (starts : ∀ render view accessedEntitiesStart prepaintStart refreshing,
      call = .prepainting render view accessedEntitiesStart prepaintStart refreshing →
        accessedEntitiesStart = self.accessedEntities)
    (nextRender : next.nextRender = self.nextRender + 1) (books : SameBooks self next)
    (states : next.EveryState (Holds ledger self.nextRender)) :
    Accounted next (ledger.place self.calls window [self.nextRender]) := by
  have unread (entity : E) : ledger.reads self.nextRender entity ≠ true :=
    fun isRead => lt_irrefl _ (accounted.reads isRead)
  have nothing {render : Nat} : render ∉ ledger.inside self.nextRender :=
    fun within => lt_irrefl _ (accounted.inside within).1
  apply accounted.place drawing draw books (by rw [nextRender]; exact Nat.le_succ _)
  case calls =>
    intro other running
    rw [books.firstRender, nextRender]
    rcases List.mem_cons.mp (calls ▸ running) with rfl | before
    · rw [new]
      exact ⟨accounted.first, Nat.lt_succ_self _⟩
    · rcases accounted.calls other before with ⟨isNew, below⟩
      exact ⟨isNew, below.trans (Nat.lt_succ_self _)⟩
  case below =>
    intro render member
    rw [List.mem_singleton.mp member, nextRender]
    exact Nat.lt_succ_self _
  case closed =>
    intro render member inner within
    rw [List.mem_singleton.mp member] at within
    exact absurd within nothing
  case accessed => exact fun entity isAccessed => accessed ▸ isAccessed
  case noted =>
    intro render member entity isRead
    rw [List.mem_singleton.mp member] at isRead
    exact absurd isRead (unread entity)
  case states =>
    apply states.mono
    refine fun render entities holds => ⟨holds, fun _ placed member entity isRead => ?_⟩
    rw [List.mem_singleton.mp member] at isRead
    exact absurd isRead (unread entity)
  case detects =>
    intro render view start prepaintStart refreshing running shown entity within isRead
    rw [accessed]
    rcases List.mem_cons.mp (calls ▸ running) with isFirst | before
    · rw [← isFirst] at new
      have isNew : render = self.nextRender := new
      rcases within with same | within | placed
      · rw [same, isNew] at isRead
        exact absurd isRead (unread entity)
      · rw [isNew] at within
        exact absurd within nothing
      · rw [List.mem_singleton.mp placed] at isRead
        exact absurd isRead (unread entity)
    · rcases within with rfl | within | placed
      · exact (accounted.detects before (Or.inl rfl) isRead).symm
      · exact (accounted.detects before (Or.inr within) isRead).symm
      · rw [List.mem_singleton.mp placed] at isRead
        exact absurd isRead (unread entity)

omit [DecidableEq E] [DecidableEq V] in
theorem reuses (accounted : Accounted self ledger) {window : W} {state : AnyViewState E}
    (drawing : self.draw = .drawing window) (draw : next.draw = .drawing window)
    (recorded : ∀ entity, state.accessedEntities entity = true → self.Recorded ledger entity)
    (accessed : next.accessedEntities =
      (self.extendAccessed state.accessedEntities).accessedEntities)
    (calls : next.calls = self.calls) (nextRender : next.nextRender = self.nextRender)
    (books : SameBooks self next)
    (states : ∀ property, self.EveryState property →
      property state.render state.accessedEntities ∧ next.EveryState property) :
    Accounted next
      (ledger.place self.calls window (state.render :: ledger.inside state.render)) := by
  have holds := (states _ accounted.states).1
  have noted {render : Nat} (member : render ∈ state.render :: ledger.inside state.render)
      {entity : E} (isRead : ledger.reads render entity = true) :
      state.accessedEntities entity = true :=
    holds.2 render entity (List.mem_cons.mp member) isRead
  have accessed_of {entity : E} (isNoted : self.accessedEntities entity = true ∨
      state.accessedEntities entity = true) : next.accessedEntities entity = true := by
    rw [accessed]
    simpa [extendAccessed] using isNoted
  apply accounted.place drawing draw books nextRender.ge
  case calls => rw [calls, books.firstRender, nextRender]; exact accounted.calls
  case below =>
    intro render member
    rw [nextRender]
    rcases List.mem_cons.mp member with rfl | within
    · exact holds.1
    · exact (accounted.inside within).2.1
  case closed =>
    intro render member inner within
    rcases List.mem_cons.mp member with rfl | outer
    · exact List.mem_cons_of_mem _ within
    · exact List.mem_cons_of_mem _ (accounted.nested outer within)
  case accessed => exact fun entity isAccessed => accessed_of (Or.inl isAccessed)
  case noted => exact fun render member entity isRead => accessed_of (Or.inr (noted member isRead))
  case states =>
    -- a state of a view around has noted what the reused state brings
    have ofRecorded : self.EveryState fun render entities =>
        ∀ entity, state.accessedEntities entity = true →
          ledger.Around self.calls render → entities entity = true :=
      ⟨fun window => ⟨fun view held found entity isNoted => ((recorded entity isNoted).2.1 window).1
            view held found,
          fun view held found entity isNoted => ((recorded entity isNoted).2.1 window).2
            view held found⟩,
        fun view held paintStart refreshing running entity isNoted =>
          (recorded entity isNoted).2.2 view held paintStart refreshing running⟩
    apply (states _ (accounted.states.and ofRecorded)).2.mono
    rintro render entities ⟨held, ofRecorded⟩
    refine ⟨held, fun isAround placed member entity isRead => ?_⟩
    exact ofRecorded entity (noted member isRead) isAround
  case detects =>
    intro render view start prepaintStart refreshing running shown entity within isRead
    rw [calls] at running
    have old (within : shown = render ∨ shown ∈ ledger.inside render) :
        start entity = false ∧ next.accessedEntities entity = true := by
      rcases accounted.detects running within isRead with ⟨isAccessed, isNew⟩
      exact ⟨isNew, accessed_of (Or.inl isAccessed)⟩
    rcases within with same | nested | placed
    · exact old (Or.inl same)
    · exact old (Or.inr nested)
    · have isNoted := noted placed isRead
      exact ⟨(recorded entity isNoted).1 render view start prepaintStart refreshing running,
        accessed_of (Or.inr isNoted)⟩

omit [DecidableEq E] [DecidableEq V] [DecidableEq W] in
theorem quiet (accounted : Accounted self ledger)
    (draw : next.draw = self.draw ∨
      (∃ window, self.draw = .drawing window ∧ next.draw = .finished window) ∧ next.calls = [])
    (calls : ∀ call ∈ next.calls, call ∈ self.calls ∨
      (∃ render, call = .rendering render ∧ self.firstRender ≤ render ∧
          render < self.nextRender) ∨
        ∃ view state paintStart refreshing, call = .painting view state paintStart refreshing ∧
          self.firstRender ≤ state.render)
    (unlessDrawing : (∀ window, self.draw ≠ .drawing window) → next.calls = self.calls)
    (accessed : next.accessedEntities = self.accessedEntities)
    (nextRender : next.nextRender = self.nextRender) (books : SameBooks self next)
    (states : next.EveryState (Holds ledger self.nextRender)) : Accounted next ledger := by
  have sameWindow : next.draw.window = self.draw.window := by
    rcases draw with same | ⟨⟨window, drawing, finished⟩, -⟩
    · rw [same]
    · rw [drawing, finished]
      rfl
  constructor
  case idle =>
    intro notDrawing
    rcases draw with same | ⟨-, empty⟩
    · rw [same] at notDrawing
      rw [unlessDrawing notDrawing, accounted.idle notDrawing]
    · exact empty
  case first => rw [books.firstRender, nextRender]; exact accounted.first
  case calls =>
    intro call running
    rw [books.firstRender, nextRender]
    rcases calls call running with before | ⟨render, rfl, range⟩ | ⟨_, _, _, _, rfl, isNew⟩
    · exact accounted.calls call before
    · exact range
    · exact ⟨isNew, (states.2 _ _ _ _ running).1⟩
  case reads => rw [nextRender]; exact accounted.reads
  case inside => rw [books.firstRender, nextRender]; exact accounted.inside
  case nested => exact accounted.nested
  case shown => rw [nextRender]; exact accounted.shown
  case others =>
    intro window render notIdle notDrawn
    rw [books.firstRender]
    rw [sameWindow] at notDrawn
    apply accounted.others _ notDrawn
    rcases draw with same | ⟨⟨window, drawing, -⟩, -⟩
    · exact same ▸ notIdle
    · rw [drawing]
      nofun
  case accessed => rw [accessed, sameWindow]; exact accounted.accessed
  case tracked => rw [books.tracked, sameWindow]; exact accounted.tracked
  case states => rw [nextRender]; exact states
  case detects =>
    intro render view start prepaintStart refreshing running
    rw [accessed]
    rcases calls _ running with before | ⟨_, ⟨⟩, -⟩ | ⟨_, _, _, _, ⟨⟩, -⟩
    exact accounted.detects before
  case inverse => rw [books.tracked, books.invalidators]; exact accounted.inverse

omit [DecidableEq E] [DecidableEq V] in
theorem beginDraw (accounted : Accounted self ledger) {window : W} (isIdle : self.draw = .idle) :
    Accounted (self.beginDraw window)
      { ledger with shown := Function.update ledger.shown window [] } := by
  have empty : self.calls = [] := accounted.idle (by rw [isIdle]; nofun)
  have shown_of {other : W} {render : Nat}
      (isShown : render ∈ Function.update ledger.shown window [] other) :
      other ≠ window ∧ render ∈ ledger.shown other := by
    by_cases same : other = window
    · subst same
      simp at isShown
    · exact ⟨same, by simpa [same] using isShown⟩
  constructor
  case idle => exact fun notDrawing => absurd rfl (notDrawing window)
  case first => exact le_rfl
  case calls =>
    intro call running
    rw [show (self.beginDraw window).calls = [] from empty] at running
    cases running
  case reads => exact accounted.reads
  case inside =>
    intro outer render within
    rcases accounted.inside within with ⟨outerBelow, renderBelow, -⟩
    exact ⟨outerBelow, renderBelow, fun _ => renderBelow⟩
  case nested => exact accounted.nested
  case shown => exact fun isShown => accounted.shown (shown_of isShown).2
  case others => exact fun _ _ isShown => accounted.shown (shown_of isShown).2
  case accessed =>
    rintro other render entity ⟨⟩ isShown
    exact absurd rfl (shown_of isShown).1
  case tracked =>
    intro other render entity _ isShown
    exact accounted.tracked (by rw [isIdle]; nofun) (shown_of isShown).2
  case states => exact accounted.states
  case detects =>
    intro render view start prepaintStart refreshing running
    rw [show (self.beginDraw window).calls = [] from empty] at running
    cases running
  case inverse => exact accounted.inverse

omit [DecidableEq E] [DecidableEq V] in
theorem record (accounted : Accounted self ledger) {window : W}
    (finished : self.draw = .finished window) (draw : next.draw = .idle)
    (calls : next.calls = self.calls) (nextRender : next.nextRender = self.nextRender)
    (books : SameBooks (self.recordEntitiesAccessed window self.accessedEntities) next)
    (states : next.EveryState (Holds ledger self.nextRender)) : Accounted next ledger := by
  have empty : next.calls = [] := by
    rw [calls]
    exact accounted.idle (by rw [finished]; nofun)
  constructor
  case idle => exact fun _ => empty
  case first => rw [books.firstRender, nextRender]; exact accounted.first
  case calls => rw [empty]; nofun
  case reads => rw [nextRender]; exact accounted.reads
  case inside => rw [books.firstRender, nextRender]; exact accounted.inside
  case nested => exact accounted.nested
  case shown => rw [nextRender]; exact accounted.shown
  case others => exact fun notIdle => absurd draw notIdle
  case accessed => rw [draw]; nofun
  case tracked =>
    intro other render entity _ isShown isRead
    rw [books.tracked]
    by_cases same : other = window
    · subst same
      simp only [recordEntitiesAccessed, Function.update_self]
      exact accounted.accessed (by rw [finished]; rfl) isShown isRead
    · simp only [recordEntitiesAccessed, Function.update_of_ne same]
      apply accounted.tracked _ isShown isRead
      rw [finished]
      rintro ⟨⟩
      exact same rfl
  case states => rw [nextRender]; exact states
  case detects =>
    rw [empty]
    nofun
  case inverse =>
    intro other entity
    rw [books.tracked, books.invalidators]
    have before := accounted.inverse other entity
    by_cases same : other = window
    · subst same
      simp [recordEntitiesAccessed, before]
    · simp [recordEntitiesAccessed, same, before]

/-- Every step keeps the account. -/
theorem step (accounted : Accounted self ledger) {nextLedger : ReadLedger E W}
    {event : TrackingEvent E V W} (stepped : Stepped self ledger event next nextLedger)
    (recorded : NotesRecorded (self, ledger) event) : Accounted next nextLedger := by
  cases stepped with
  | access entity => exact accounted.access recorded
  | beginDraw window isIdle => exact accounted.beginDraw isIdle
  | record finished draw calls nextRender books states =>
      exact accounted.record finished draw calls nextRender books (states _ accounted.states)
  | begins drawing draw accessed calls new starts nextRender books states =>
      exact accounted.begins drawing draw accessed calls new starts nextRender books
        (states _ accounted.states)
  | reusePrepaint drawing draw reuses accessed calls nextRender books states =>
      have noted := recorded _ drawing _ _ reuses
      exact accounted.reuses drawing draw noted accessed calls nextRender books states
  | endPrepaint drawing draw calls accessed nextRender books states =>
      apply accounted.quiet (Or.inl (draw.trans drawing.symm)) _
        (fun idle => absurd drawing (idle _)) accessed nextRender books
      · apply states _ accounted.states
        have running := calls ▸ List.mem_cons_self
        refine ⟨(accounted.calls _ running).2, fun shown entity within isRead => ?_⟩
        rcases accounted.detects running within isRead with ⟨isAccessed, isNew⟩
        simp [entitiesAccessedInCallback, isAccessed, isNew]
      · exact fun call member => Or.inl (calls ▸ List.mem_cons_of_mem _ member)
  | quiet draw calls unlessDrawing accessed nextRender books states =>
      exact accounted.quiet draw calls unlessDrawing accessed nextRender books
        (states _ accounted.states)

end Accounted

/-! ## Runs -/

/-- In every run that meets the condition, what the renders shown by a window read is
tracked for the window whenever it is not being drawn; the two maps of tracked entities are
inverse to each other; and the callback of `detect_accessed_entities` read nothing that is
not returned. -/
theorem entities_tracked {events : List (TrackingEvent E V W)} {tracking : EntityTracking E V W}
    {ledger : ReadLedger E W}
    (run : Run observe NotesRecorded (new, .new) events (tracking, ledger)) :
    (∀ window, tracking.draw.window ≠ some window → ∀ render ∈ ledger.shown window,
        ∀ entity, ledger.reads render entity = true →
          tracking.trackedEntities window entity = true) ∧
      (∀ window entity, tracking.trackedEntities window entity =
        tracking.windowInvalidatorsByEntity entity window) ∧
      ∀ render view accessedEntitiesStart prepaintStart refreshing calls,
        tracking.calls =
            .prepainting render view accessedEntitiesStart prepaintStart refreshing :: calls →
          ∀ entity, ledger.reads render entity = true →
            entitiesAccessedInCallback accessedEntitiesStart tracking.accessedEntities entity =
              true := by
  have accounted : Accounted tracking ledger :=
    run.invariant (fun _ reached => Accounted reached.1 reached.2) accounted_new
      fun accounted recorded steps => accounted.step (stepped_of_observe steps) recorded
  refine ⟨?_, accounted.inverse, ?_⟩
  · exact fun window notDrawn render isShown entity isRead =>
      accounted.tracked notDrawn isShown isRead
  · intro render view start prepaintStart refreshing calls running entity isRead
    rcases accounted.detects (running ▸ List.mem_cons_self) (Or.inl rfl) isRead with
      ⟨isAccessed, isNew⟩
    simp [entitiesAccessedInCallback, isAccessed, isNew]

/-- A cached view reads an entity, and the next frame reuses it. -/
def reusing : List (TrackingEvent Nat Unit Unit) :=
  [.beginDraw (), .beginPrepaint (), .access 5, .endPrepaint, .beginPaint (), .endPaint, .finish,
    .recordEntitiesAccessed, .beginDraw (), .reusePrepaint (), .reusePaint (), .finish,
    .recordEntitiesAccessed]

theorem entities_tracked_reusing :
    ∃ (tracking : EntityTracking Nat Unit Unit) (ledger : ReadLedger Nat Unit),
      0 ∈ ledger.shown () ∧ ledger.reads 0 5 = true ∧ tracking.trackedEntities () 5 = true := by
  have runs : ∃ reached : EntityTracking Nat Unit Unit × ReadLedger Nat Unit,
      Run observe NotesRecorded (new, .new) reusing reached ∧
        0 ∈ reached.2.shown () ∧ reached.2.reads 0 5 = true ∧ reached.1.draw = .idle := by
    apply Exists.intro
    constructor
    · apply Run.cons trivial rfl
      apply Run.cons trivial rfl
      apply Run.cons _ rfl
      · apply Run.cons trivial rfl
        apply Run.cons trivial rfl
        apply Run.cons trivial rfl
        apply Run.cons trivial rfl
        apply Run.cons trivial rfl
        apply Run.cons trivial rfl
        apply Run.cons _ rfl
        · apply Run.cons trivial rfl
          apply Run.cons trivial rfl
          apply Run.cons trivial rfl
          exact .nil
        · rintro _ ⟨⟩ state next ⟨⟩ entity noted
          constructor
          · nofun
          · refine ⟨fun _ => ⟨nofun, ?_⟩, nofun⟩
            rintro _ _ ⟨⟩ isAround
            exact absurd isAround (by decide)
      · constructor
        · intro render view start prepaintStart refreshing running
          rcases List.mem_singleton.mp running with ⟨⟩
          rfl
        · refine ⟨fun _ => ⟨nofun, nofun⟩, fun view state paintStart refreshing running => ?_⟩
          cases List.mem_singleton.mp running
    · exact ⟨by decide, by decide, rfl⟩
  rcases runs with ⟨⟨tracking, ledger⟩, run, isShown, isRead, idle⟩
  have tracked := (entities_tracked run).1 () (by rw [idle]; nofun) 0 isShown 5 isRead
  exact ⟨tracking, ledger, isShown, isRead, tracked⟩

/-! ## A read that is lost -/

/-- An uncached view reads an entity before a cached view in it does, and in the next
frame it does not read it again, and the cached view is reused. -/
def rereading : List (TrackingEvent Nat Unit Unit) :=
  [.beginDraw (), .beginRender, .access 5, .endRender, .resumeRender 0, .beginPrepaint (),
    .access 5, .endPrepaint, .endRender, .finish, .recordEntitiesAccessed, .beginDraw (),
    .beginRender, .endRender, .resumeRender 2, .reusePrepaint (), .endRender, .finish,
    .recordEntitiesAccessed]

theorem exists_read_untracked :
    (¬ ∀ (events : List (TrackingEvent Nat Unit Unit)) (tracking : EntityTracking Nat Unit Unit)
        (ledger : ReadLedger Nat Unit),
      Run observe (fun _ _ => True) (new, .new) events (tracking, ledger) →
      ∀ window, tracking.draw.window ≠ some window → ∀ render ∈ ledger.shown window,
        ∀ entity, ledger.reads render entity = true →
          tracking.trackedEntities window entity = true) ∧
      ¬ ∀ (events : List (TrackingEvent Nat Unit Unit)) (tracking : EntityTracking Nat Unit Unit)
        (ledger : ReadLedger Nat Unit),
      Run observe (fun _ _ => True) (new, .new) events (tracking, ledger) →
      ∀ render view accessedEntitiesStart prepaintStart refreshing calls,
        tracking.calls =
            .prepainting render view accessedEntitiesStart prepaintStart refreshing :: calls →
          ∀ entity, ledger.reads render entity = true →
            entitiesAccessedInCallback accessedEntitiesStart tracking.accessedEntities entity =
              true := by
  constructor
  · intro tracked
    have runs : ∃ reached : EntityTracking Nat Unit Unit × ReadLedger Nat Unit,
        rereading.foldlM observe (new, .new) = some reached ∧ 1 ∈ reached.2.shown () ∧
          reached.2.reads 1 5 = true ∧ reached.1.draw = .idle ∧
          reached.1.trackedEntities () 5 = false :=
      ⟨_, rfl, by decide, by decide, rfl, by decide⟩
    rcases runs with ⟨⟨tracking, ledger⟩, folded, isShown, isRead, idle, untracked⟩
    have isTracked := tracked rereading tracking ledger (Run.of_foldlM folded) ()
      (by rw [idle]; nofun) 1 isShown 5 isRead
    rw [untracked] at isTracked
    cases isTracked
  · intro returned
    have runs : ∃ reached : EntityTracking Nat Unit Unit × ReadLedger Nat Unit,
        [.beginDraw (), .access 5, .beginPrepaint (), .access 5].foldlM observe (new, .new) =
            some reached ∧
          ∃ start prepaintStart refreshing calls,
            reached.1.calls = .prepainting 0 () start prepaintStart refreshing :: calls ∧
              reached.2.reads 0 5 = true ∧
              entitiesAccessedInCallback start reached.1.accessedEntities 5 = false :=
      ⟨_, rfl, _, _, _, _, rfl, by decide, by decide⟩
    rcases runs with ⟨⟨tracking, ledger⟩, folded, start, prepaintStart, refreshing, calls,
      running, isRead, missing⟩
    have isReturned := returned _ tracking ledger (Run.of_foldlM folded) 0 () start prepaintStart
      refreshing calls running 5 isRead
    rw [missing] at isReturned
    cases isReturned

end EntityTracking

end Gpui
