import Gpui.Library.Transition

/-!
# Reading an X11 selection

A client that reads a selection asks its owner to convert it.  The owner writes the data to a
property of the reader's window and notifies the reader.  What is too large it announces, and
sends in segments: the reader deletes the property, the server tells the owner, the owner writes
the next segment, until it writes an empty one.

The three parties are the owner, the server with the property and the events that the reader has
not polled, and the reader, each of whose requests is a step of its own.  The owner keeps to the
protocol: it answers with the selection and the target of the request.  Unrelated events are not
shown.  The reader may time out whenever it polls.
-/

namespace Gpui.X11Clipboard

open Gpui.Library

abbrev Atom := UInt32

/-- The numbers that the server gives to the names. -/
structure Atoms where
  targets : Atom
  atom : Atom
  incr : Atom

def plainAtoms : Atoms where
  targets := 5
  atom := 6
  incr := 7

variable {atoms : Atoms}

structure ClipboardData where
  bytes : List UInt8
  format : Atom
deriving DecidableEq, Repr

/-- What the owner does about the request. -/
inductive Offer where
  | refuse
  | whole (data : ClipboardData)
  /-- The segments are of this type. -/
  | inSegments (type : Atom) (segments : List (List UInt8))

inductive Owner where
  | asked
  /-- It has written the property. -/
  | answered
  /-- It has notified the reader, and has these segments to send. -/
  | notified (left : List (List UInt8))

/-- Events of the reader's window. -/
inductive ReaderEvent where
  | selectionNotify (converted : Bool)
  /-- The property has a new value, or is deleted. -/
  | propertyNotify (newValue : Bool)

inductive ReaderPhase where
  | polling
  /-- Between the two times that it gets the property. -/
  | startingIncr
  /-- `none` is the error that the content is not available. -/
  | returned (result : Option ClipboardData)

structure Reader where
  usingIncr : Bool
  incrData : List UInt8
  phase : ReaderPhase

structure Transfer where
  property : Option ClipboardData
  events : List ReaderEvent
  /-- The deletions that the owner has not seen. -/
  deleted : Nat
  owner : Owner
  reader : Reader

inductive TransferEvent where
  | ownerAnswers
  | ownerNotifies
  | ownerSends
  | readerPolls
  | readerStartsIncr
  | timeOut
deriving DecidableEq

namespace Offer

/-- What the owner writes first; an announcement gives a size, which may be any number. -/
def first (atoms : Atoms) : Offer → Option ClipboardData
  | refuse => none
  | whole data => some data
  | inSegments _ _ => some ⟨[], atoms.incr⟩

/-- What the owner sends after it has notified the reader, with the empty segment at the end. -/
def left : Offer → List (List UInt8)
  | inSegments _ segments => segments ++ [[]]
  | _ => []

def type : Offer → Atom
  | inSegments type _ => type
  | _ => 0

/-- Data is not of the type that announces data. -/
def Conforms (atoms : Atoms) : Offer → Prop
  | refuse => True
  | whole data => data.format ≠ atoms.incr
  | inSegments type _ => type ≠ atoms.incr

end Offer

/-- The type that the reader asks for when it gets a segment. -/
def wanted (atoms : Atoms) (targetFormat : Atom) : Atom :=
  if targetFormat = atoms.targets then atoms.atom else targetFormat

namespace Transfer

def start : Transfer where
  property := none
  events := []
  deleted := 0
  owner := .asked
  reader := { usingIncr := false, incrData := [], phase := .polling }

def changeProperty (self : Transfer) (data : ClipboardData) : Transfer :=
  { self with property := some data, events := self.events ++ [.propertyNotify true] }

/-- Get a property of a type, or of any, and delete it.  A property of another type stays, and
its value is not given. -/
def getProperty (self : Transfer) (type : Option Atom) : ClipboardData × Transfer :=
  match self.property with
  | none => (⟨[], 0⟩, self)
  | some property =>
      if type = none ∨ type = some property.format then
        (property,
          { self with
            property := none
            events := self.events ++ [.propertyNotify false]
            deleted := self.deleted + 1 })
      else (⟨[], property.format⟩, self)

theorem getProperty_of_ne {self : Transfer} {data : ClipboardData} {type : Atom}
    (holds : self.property = some data) (other : data.format ≠ type) :
    self.getProperty (some type) = (⟨[], data.format⟩, self) := by
  rw [getProperty, holds]
  apply if_neg
  rintro (anyType | same)
  · cases anyType
  · exact other (Option.some.inj same).symm

theorem getProperty_of_eq {self : Transfer} {data : ClipboardData} {type : Atom}
    (holds : self.property = some data) (same : data.format = type) :
    self.getProperty (some type) =
      (data, { self with
        property := none
        events := self.events ++ [.propertyNotify false]
        deleted := self.deleted + 1 }) := by
  rw [getProperty, holds]
  exact if_pos (Or.inr (congrArg some same.symm))

def setPhase (self : Transfer) (phase : ReaderPhase) : Transfer :=
  { self with reader := { self.reader with phase } }

/-- `handle_read_selection_notify`, up to where it starts to read segments. -/
def handleReadSelectionNotify (atoms : Atoms) (self : Transfer) (converted : Bool) : Transfer :=
  if converted = false then self.setPhase (.returned none)
  else if self.reader.usingIncr then self
  else
    let (reply, self) := self.getProperty none
    if reply.format = atoms.incr then self.setPhase .startingIncr
    else self.setPhase (.returned (some reply))

def handleReadPropertyNotify (atoms : Atoms) (self : Transfer) (targetFormat : Atom)
    (newValue : Bool) : Transfer :=
  if newValue = false ∨ self.reader.usingIncr = false then self
  else
    let (reply, self) := self.getProperty (some (wanted atoms targetFormat))
    if reply.bytes = [] then
      self.setPhase (.returned (some ⟨self.reader.incrData, targetFormat⟩))
    else
      { self with
        reader := { self.reader with incrData := self.reader.incrData ++ reply.bytes } }

def step (atoms : Atoms) (targetFormat : Atom) (offer : Offer) (self : Transfer) :
    TransferEvent → Option Transfer
  | .ownerAnswers =>
      match self.owner, offer.first atoms with
      | .asked, some data => some { self.changeProperty data with owner := .answered }
      | .asked, none =>
          some { self with
            events := self.events ++ [.selectionNotify false], owner := .notified [] }
      | _, _ => none
  | .ownerNotifies =>
      match self.owner with
      | .answered =>
          some { self with
            events := self.events ++ [.selectionNotify true], owner := .notified offer.left }
      | _ => none
  | .ownerSends =>
      match self.owner, self.deleted with
      | .notified (segment :: left), deleted + 1 =>
          some { self.changeProperty ⟨segment, offer.type⟩ with
            deleted, owner := .notified left }
      | _, _ => none
  | .readerPolls =>
      match self.reader.phase, self.events with
      | .polling, .selectionNotify converted :: events =>
          some ({ self with events }.handleReadSelectionNotify atoms converted)
      | .polling, .propertyNotify newValue :: events =>
          some ({ self with events }.handleReadPropertyNotify atoms targetFormat newValue)
      | _, _ => none
  | .readerStartsIncr =>
      match self.reader.phase with
      | .startingIncr =>
          let (_, self) := self.getProperty (some atoms.incr)
          some { self with reader := { self.reader with usingIncr := true, phase := .polling } }
      | _ => none
  | .timeOut =>
      match self.reader.phase with
      | .polling => some (self.setPhase (.returned none))
      | _ => none

end Transfer

/-! ## What is read -/

/-- What the owner offers: of segments, those before the first that is empty. -/
def Offer.result (atoms : Atoms) (targetFormat : Atom) : Offer → Option ClipboardData
  | .refuse => none
  | .whole data => some data
  | .inSegments type segments =>
      some ⟨if type = wanted atoms targetFormat then (segments.takeWhile (· ≠ [])).flatten else [],
        targetFormat⟩

/-- Where a transfer can be. -/
inductive Reached (atoms : Atoms) (targetFormat : Atom) (offer : Offer) (timedOut : Prop) :
    Transfer → Prop where
  | asked : Reached atoms targetFormat offer timedOut .start
  | answered {data : ClipboardData} {events : List ReaderEvent}
      (first : offer.first atoms = some data)
      (early : events = [] ∨ events = [.propertyNotify true]) :
      Reached atoms targetFormat offer timedOut
        ⟨some data, events, 0, .answered, ⟨false, [], .polling⟩⟩
  | notified {data : ClipboardData} {events : List ReaderEvent}
      (first : offer.first atoms = some data)
      (early : events = [] ∨ events = [.propertyNotify true]) :
      Reached atoms targetFormat offer timedOut
        ⟨some data, events ++ [.selectionNotify true], 0, .notified offer.left,
          ⟨false, [], .polling⟩⟩
  | refused (refuses : offer = .refuse) :
      Reached atoms targetFormat offer timedOut
        ⟨none, [.selectionNotify false], 0, .notified [], ⟨false, [], .polling⟩⟩
  | starting (announced : ∃ type segments, offer = .inSegments type segments) :
      Reached atoms targetFormat offer timedOut
        ⟨none, [.propertyNotify false], 1, .notified offer.left, ⟨false, [], .startingIncr⟩⟩
  /-- The first segment comes before the reader is ready for it. -/
  | startingSent {segment : List UInt8} {left : List (List UInt8)}
      (announced : ∃ type segments, offer = .inSegments type segments)
      (split : offer.left = segment :: left) :
      Reached atoms targetFormat offer timedOut
        ⟨some ⟨segment, offer.type⟩, [.propertyNotify false, .propertyNotify true], 0,
          .notified left, ⟨false, [], .startingIncr⟩⟩
  | waiting {events : List ReaderEvent} {got left : List (List UInt8)}
      (announced : ∃ type segments, offer = .inSegments type segments)
      (split : offer.left = got ++ left) (nonempty : ∀ segment ∈ got, segment ≠ [])
      (typed : got ≠ [] → offer.type = wanted atoms targetFormat)
      (late : events = [] ∨ events = [.propertyNotify false]) :
      Reached atoms targetFormat offer timedOut
        ⟨none, events, 1, .notified left, ⟨true, got.flatten, .polling⟩⟩
  | sent {events : List ReaderEvent} {got left : List (List UInt8)} {segment : List UInt8}
      (announced : ∃ type segments, offer = .inSegments type segments)
      (split : offer.left = got ++ segment :: left) (nonempty : ∀ segment ∈ got, segment ≠ [])
      (typed : got ≠ [] → offer.type = wanted atoms targetFormat)
      (late : events = [] ∨ events = [.propertyNotify false]) :
      Reached atoms targetFormat offer timedOut
        ⟨some ⟨segment, offer.type⟩, events ++ [.propertyNotify true], 0, .notified left,
          ⟨true, got.flatten, .polling⟩⟩
  | returned {transfer : Transfer} {result : Option ClipboardData}
      (isResult : result = offer.result atoms targetFormat ∨ result = none ∧ timedOut)
      (phase : transfer.reader.phase = .returned result) :
      Reached atoms targetFormat offer timedOut transfer

/-- The segments that were got and an empty one are all that there is to send. -/
theorem takeWhile_eq {segments got left : List (List UInt8)}
    (split : segments ++ [[]] = got ++ [] :: left) (nonempty : ∀ segment ∈ got, segment ≠ []) :
    segments.takeWhile (· ≠ []) = got := by
  have ended (front back : List (List UInt8)) :
      (front ++ [] :: back).takeWhile (· ≠ []) = front.takeWhile (· ≠ []) := by
    induction front with
    | nil => rfl
    | cons segment front ih =>
        rw [List.cons_append, List.takeWhile_cons, List.takeWhile_cons, ih]
  calc segments.takeWhile (· ≠ []) = (segments ++ [[]]).takeWhile (· ≠ []) :=
        (ended segments []).symm
    _ = got.takeWhile (· ≠ []) := by rw [split, ended]
    _ = got := List.takeWhile_eq_self_iff.mpr fun segment member => by
        simpa using nonempty segment member

namespace Reached

variable {targetFormat : Atom} {offer : Offer} {timedOut : Prop} {transfer next : Transfer}

/-- The empty segment ends the data, as does one of another type. -/
theorem result_of_split {got left : List (List UInt8)} {segment : List UInt8}
    (announced : ∃ type segments, offer = .inSegments type segments)
    (split : offer.left = got ++ segment :: left) (nonempty : ∀ segment ∈ got, segment ≠ [])
    (typed : got ≠ [] → offer.type = wanted atoms targetFormat)
    (ended : segment = [] ∨ offer.type ≠ wanted atoms targetFormat) :
    offer.result atoms targetFormat = some ⟨got.flatten, targetFormat⟩ := by
  rcases announced with ⟨type, segments, rfl⟩
  rw [Offer.result]
  by_cases same : type = wanted atoms targetFormat
  · rw [if_pos same]
    rcases ended with rfl | other
    · rw [takeWhile_eq split nonempty]
    · exact absurd same other
  · rw [if_neg same]
    have none : got = [] := by
      by_contra some
      exact same (typed some)
    rw [none]
    rfl

theorem mono {later : Prop} (implies : timedOut → later)
    (reached : Reached atoms targetFormat offer timedOut transfer) :
    Reached atoms targetFormat offer later transfer := by
  cases reached with
  | asked => exact .asked
  | answered first early => exact .answered first early
  | notified first early => exact .notified first early
  | refused refuses => exact .refused refuses
  | starting announced => exact .starting announced
  | startingSent announced split => exact .startingSent announced split
  | waiting announced split nonempty typed late =>
      exact .waiting announced split nonempty typed late
  | sent announced split nonempty typed late => exact .sent announced split nonempty typed late
  | returned isResult phase =>
      exact .returned (isResult.imp_right fun timed => ⟨timed.1, implies timed.2⟩) phase

theorem ownerAnswers (reached : Reached atoms targetFormat offer timedOut transfer)
    (stepped : transfer.step atoms targetFormat offer .ownerAnswers = some next) :
    Reached atoms targetFormat offer timedOut next := by
  cases reached with
  | asked =>
      cases first : offer.first atoms with
      | none =>
          simp only [Transfer.step, Transfer.start, first, Option.some.injEq] at stepped
          subst stepped
          apply refused
          cases offer with
          | refuse => rfl
          | whole data => cases first
          | inSegments type segments => cases first
      | some data =>
          simp only [Transfer.step, Transfer.start, first, Option.some.injEq] at stepped
          subst stepped
          exact answered first (Or.inr rfl)
  | returned isResult phase =>
      apply returned isResult
      simp only [Transfer.step] at stepped
      split at stepped
      · obtain rfl := Option.some.inj stepped
        exact phase
      · obtain rfl := Option.some.inj stepped
        exact phase
      · cases stepped
  | _ => cases stepped

theorem ownerNotifies (reached : Reached atoms targetFormat offer timedOut transfer)
    (stepped : transfer.step atoms targetFormat offer .ownerNotifies = some next) :
    Reached atoms targetFormat offer timedOut next := by
  cases reached with
  | answered first early =>
      obtain rfl := Option.some.inj stepped
      exact notified first early
  | returned isResult phase =>
      apply returned isResult
      simp only [Transfer.step] at stepped
      split at stepped
      · obtain rfl := Option.some.inj stepped
        exact phase
      · cases stepped
  | _ => cases stepped

/-- The owner sends only when the reader has deleted what it sent before. -/
theorem deleted_ne_zero (stepped : transfer.step atoms targetFormat offer .ownerSends = some next) :
    transfer.deleted ≠ 0 := by
  simp only [Transfer.step] at stepped
  split at stepped
  · rename_i segment left deleted owner isDeleted
    rw [isDeleted]
    exact Nat.succ_ne_zero deleted
  · cases stepped

theorem ownerSends (reached : Reached atoms targetFormat offer timedOut transfer)
    (stepped : transfer.step atoms targetFormat offer .ownerSends = some next) :
    Reached atoms targetFormat offer timedOut next := by
  cases reached with
  | starting announced =>
      cases split : offer.left with
      | nil => simp [Transfer.step, split] at stepped
      | cons segment left =>
          simp only [Transfer.step, split, Option.some.injEq] at stepped
          subst stepped
          exact startingSent announced split
  | @waiting events got left announced split nonempty typed late =>
      cases left with
      | nil => cases stepped
      | cons segment left =>
          obtain rfl := Option.some.inj stepped
          exact sent announced split nonempty typed late
  | returned isResult phase =>
      apply returned isResult
      simp only [Transfer.step] at stepped
      split at stepped
      · obtain rfl := Option.some.inj stepped
        exact phase
      · cases stepped
  | notified first early => exact absurd rfl (deleted_ne_zero stepped)
  | startingSent announced split => exact absurd rfl (deleted_ne_zero stepped)
  | sent announced split nonempty typed late => exact absurd rfl (deleted_ne_zero stepped)
  | _ => cases stepped

theorem readerStartsIncr (conforms : offer.Conforms atoms)
    (reached : Reached atoms targetFormat offer timedOut transfer)
    (stepped : transfer.step atoms targetFormat offer .readerStartsIncr = some next) :
    Reached atoms targetFormat offer timedOut next := by
  cases reached with
  | starting announced =>
      obtain rfl := Option.some.inj stepped
      change Reached atoms targetFormat offer timedOut ⟨none, [.propertyNotify false], 1,
        .notified offer.left, ⟨true, ([] : List (List UInt8)).flatten, .polling⟩⟩
      exact waiting announced rfl nofun (fun some => absurd rfl some) (Or.inr rfl)
  | @startingSent segment left announced split =>
      rcases announced with ⟨type, segments, rfl⟩
      have stays : Transfer.getProperty ⟨some ⟨segment, type⟩,
          [.propertyNotify false, .propertyNotify true], 0, .notified left,
          ⟨false, [], .startingIncr⟩⟩ (some atoms.incr) = (_, _) :=
        Transfer.getProperty_of_ne rfl conforms
      simp only [Transfer.step, Offer.type, stays, Option.some.injEq] at stepped
      subst stepped
      change Reached atoms targetFormat (.inSegments type segments) timedOut
        ⟨some ⟨segment, type⟩, [.propertyNotify false] ++ [.propertyNotify true], 0, .notified left,
          ⟨true, ([] : List (List UInt8)).flatten, .polling⟩⟩
      exact sent ⟨type, segments, rfl⟩ split nofun (fun some => absurd rfl some) (Or.inr rfl)
  | returned isResult phase => simp [Transfer.step, phase] at stepped
  | _ => cases stepped

theorem timeOut (stepped : transfer.step atoms targetFormat offer .timeOut = some next) :
    Reached atoms targetFormat offer True next := by
  simp only [Transfer.step] at stepped
  split at stepped
  · obtain rfl := Option.some.inj stepped
    exact returned (Or.inr ⟨rfl, trivial⟩) rfl
  · cases stepped

/-- The reader polls an announcement, the data as a whole, or a refusal. -/
theorem pollNotified {data : ClipboardData} (conforms : offer.Conforms atoms)
    (first : offer.first atoms = some data)
    (polled : transfer = Transfer.handleReadSelectionNotify atoms
      ⟨some data, [], 0, .notified offer.left, ⟨false, [], .polling⟩⟩ true) :
    Reached atoms targetFormat offer timedOut transfer := by
  subst polled
  cases offer with
  | refuse => cases first
  | whole data =>
      obtain rfl := Option.some.inj first
      apply returned (Or.inl rfl)
      have other : data.format ≠ atoms.incr := conforms
      simp only [Transfer.handleReadSelectionNotify, Transfer.getProperty, true_or, if_true,
        Bool.true_eq_false, Bool.false_eq_true, if_false, if_neg other]
      rfl
  | inSegments type segments =>
      obtain rfl := Option.some.inj first
      simp only [Transfer.handleReadSelectionNotify, Transfer.getProperty, true_or, if_true,
        Bool.true_eq_false, Bool.false_eq_true, if_false]
      exact starting ⟨type, segments, rfl⟩

/-- The reader polls that there is a segment, and gets it. -/
theorem pollSegment {got left : List (List UInt8)} {segment : List UInt8}
    (announced : ∃ type segments, offer = .inSegments type segments)
    (split : offer.left = got ++ segment :: left) (nonempty : ∀ segment ∈ got, segment ≠ [])
    (typed : got ≠ [] → offer.type = wanted atoms targetFormat)
    (polled : transfer = Transfer.handleReadPropertyNotify atoms
      ⟨some ⟨segment, offer.type⟩, [], 0, .notified left, ⟨true, got.flatten, .polling⟩⟩
        targetFormat true) :
    Reached atoms targetFormat offer timedOut transfer := by
  subst polled
  have ready : ¬(true = false ∨ true = false) := by simp
  by_cases same : offer.type = wanted atoms targetFormat
  · rw [Transfer.handleReadPropertyNotify, if_neg ready,
      Transfer.getProperty_of_eq rfl same]
    by_cases empty : segment = []
    · simp only [if_pos empty]
      apply returned (Or.inl _) rfl
      exact (result_of_split announced split nonempty typed (Or.inl empty)).symm
    · simp only [if_neg empty]
      have all : ∀ other ∈ got ++ [segment], other ≠ [] := by
        intro other member
        rcases List.mem_append.mp member with before | last
        · exact nonempty other before
        · rwa [List.mem_singleton.mp last]
      have more : Reached atoms targetFormat offer timedOut _ := waiting announced
        (split.trans (List.append_cons got segment left)) all (fun _ => same) (Or.inr rfl)
      rwa [List.flatten_append, List.flatten_singleton] at more
  · rw [Transfer.handleReadPropertyNotify, if_neg ready,
      Transfer.getProperty_of_ne rfl same]
    apply returned (Or.inl _) rfl
    exact (result_of_split announced split nonempty typed (Or.inr same)).symm

theorem readerPolls (conforms : offer.Conforms atoms)
    (reached : Reached atoms targetFormat offer timedOut transfer)
    (stepped : transfer.step atoms targetFormat offer .readerPolls = some next) :
    Reached atoms targetFormat offer timedOut next := by
  cases reached with
  | answered first early =>
      rcases early with rfl | rfl
      · cases stepped
      · obtain rfl := Option.some.inj stepped
        exact answered first (Or.inl rfl)
  | notified first early =>
      rcases early with rfl | rfl
      · exact pollNotified conforms first (Option.some.inj stepped).symm
      · obtain rfl := Option.some.inj stepped
        exact notified first (Or.inl rfl)
  | refused refuses =>
      obtain rfl := Option.some.inj stepped
      apply returned (Or.inl _) rfl
      rw [refuses]
      rfl
  | waiting announced split nonempty typed late =>
      rcases late with rfl | rfl
      · cases stepped
      · obtain rfl := Option.some.inj stepped
        exact waiting announced split nonempty typed (Or.inl rfl)
  | sent announced split nonempty typed late =>
      rcases late with rfl | rfl
      · exact pollSegment announced split nonempty typed (Option.some.inj stepped).symm
      · obtain rfl := Option.some.inj stepped
        exact sent announced split nonempty typed (Or.inl rfl)
  | returned isResult phase => simp [Transfer.step, phase] at stepped
  | _ => cases stepped

theorem step (conforms : offer.Conforms atoms)
    (reached : Reached atoms targetFormat offer timedOut transfer)
    {event : TransferEvent} (stepped : transfer.step atoms targetFormat offer event = some next) :
    Reached atoms targetFormat offer (timedOut ∨ event = .timeOut) next := by
  cases event with
  | ownerAnswers => exact (reached.ownerAnswers stepped).mono Or.inl
  | ownerNotifies => exact (reached.ownerNotifies stepped).mono Or.inl
  | ownerSends => exact (reached.ownerSends stepped).mono Or.inl
  | readerPolls => exact (reached.readerPolls conforms stepped).mono Or.inl
  | readerStartsIncr => exact (reached.readerStartsIncr conforms stepped).mono Or.inl
  | timeOut => exact (timeOut stepped).mono fun _ => Or.inr rfl

/-- Until the reader returns, someone can go on. -/
theorem progress (reached : Reached atoms targetFormat offer timedOut transfer)
    (goes : ∀ result, transfer.reader.phase ≠ .returned result) :
    ∃ event, event ≠ .timeOut ∧ transfer.step atoms targetFormat offer event ≠ none := by
  cases reached with
  | asked =>
      refine ⟨.ownerAnswers, nofun, ?_⟩
      cases first : offer.first atoms with
      | none => simp [Transfer.step, Transfer.start, first]
      | some data => simp [Transfer.step, Transfer.start, first]
  | answered first early => exact ⟨.ownerNotifies, nofun, nofun⟩
  | notified first early =>
      rcases early with rfl | rfl
      · exact ⟨.readerPolls, nofun, nofun⟩
      · exact ⟨.readerPolls, nofun, nofun⟩
  | refused refuses => exact ⟨.readerPolls, nofun, nofun⟩
  | starting announced => exact ⟨.readerStartsIncr, nofun, nofun⟩
  | startingSent announced split => exact ⟨.readerStartsIncr, nofun, nofun⟩
  | @waiting events got left announced split nonempty typed late =>
      refine ⟨.ownerSends, nofun, ?_⟩
      cases left with
      | nil =>
          -- the empty segment is still to be sent
          rcases announced with ⟨type, segments, rfl⟩
          rw [List.append_nil] at split
          exact absurd rfl (nonempty [] (split ▸ List.mem_append_right segments
            List.mem_cons_self))
      | cons segment left => nofun
  | sent announced split nonempty typed late =>
      rcases late with rfl | rfl
      · exact ⟨.readerPolls, nofun, nofun⟩
      · exact ⟨.readerPolls, nofun, nofun⟩
  | returned isResult phase => exact absurd phase (goes _)

end Reached

/-! ## That it ends -/

def ReaderEvent.rank : ReaderEvent → Nat
  | .selectionNotify _ => 4
  | .propertyNotify true => 3
  | .propertyNotify false => 1

def ReaderPhase.rank : ReaderPhase → Nat
  | .polling => 1
  | .startingIncr => 3
  | .returned _ => 0

def Owner.rank (offer : Offer) : Owner → Nat
  | .asked => 9 + 4 * offer.left.length
  | .answered => 5 + 4 * offer.left.length
  | .notified left => 4 * left.length

namespace Transfer

variable {targetFormat : Atom} {offer : Offer} {self next : Transfer}

/-- What is still to do. -/
def rank (offer : Offer) (self : Transfer) : Nat :=
  self.owner.rank offer + (self.events.map ReaderEvent.rank).sum + self.reader.phase.rank

theorem rank_changeProperty (offer : Offer) (self : Transfer) (data : ClipboardData) :
    (self.changeProperty data).rank offer = self.rank offer + 3 := by
  simp only [rank, changeProperty, List.map_append, List.map_cons, List.map_nil, List.sum_append,
    List.sum_singleton, ReaderEvent.rank]
  omega

/-- At most one deletion is reported, and nothing else changes. -/
theorem rank_getProperty (offer : Offer) (self : Transfer) (type : Option Atom) :
    (self.getProperty type).2.rank offer ≤ self.rank offer + 1 ∧
      (self.getProperty type).2.reader = self.reader := by
  unfold getProperty
  cases self.property with
  | none => exact ⟨Nat.le_succ _, rfl⟩
  | some property =>
      simp only
      split
      · refine ⟨?_, rfl⟩
        simp only [rank, List.map_append, List.map_cons, List.map_nil, List.sum_append,
          List.sum_singleton, ReaderEvent.rank]
        omega
      · exact ⟨Nat.le_succ _, rfl⟩

theorem rank_setPhase (offer : Offer) (self : Transfer) (phase : ReaderPhase) :
    (self.setPhase phase).rank offer + self.reader.phase.rank =
      self.rank offer + phase.rank := by
  simp only [rank, setPhase]
  omega

theorem rank_handleReadSelectionNotify (atoms : Atoms) (offer : Offer)
    (polling : self.reader.phase = .polling) (converted : Bool) :
    (self.handleReadSelectionNotify atoms converted).rank offer ≤ self.rank offer + 3 := by
  unfold handleReadSelectionNotify
  split
  · have phase := rank_setPhase offer self (.returned none)
    simp only [ReaderPhase.rank] at phase
    omega
  · split
    · exact Nat.le_add_right _ _
    · have got := rank_getProperty offer self none
      rcases isGot : self.getProperty none with ⟨reply, rest⟩
      simp only [isGot] at got
      have before : rest.reader.phase = .polling := by
        rw [got.2, polling]
      simp only
      split
      · have phase := rank_setPhase offer rest .startingIncr
        simp only [before, ReaderPhase.rank] at phase
        omega
      · have phase := rank_setPhase offer rest (.returned (some reply))
        simp only [before, ReaderPhase.rank] at phase
        omega

theorem rank_handleReadPropertyNotify (atoms : Atoms) (targetFormat : Atom) (offer : Offer)
    (polling : self.reader.phase = .polling) (newValue : Bool) :
    (self.handleReadPropertyNotify atoms targetFormat newValue).rank offer + 1 ≤
      self.rank offer + (ReaderEvent.propertyNotify newValue).rank := by
  unfold handleReadPropertyNotify
  have positive : 1 ≤ (ReaderEvent.propertyNotify newValue).rank := by
    cases newValue <;> simp [ReaderEvent.rank]
  split
  · omega
  · rename_i ready
    obtain rfl : newValue = true := by
      cases newValue with
      | true => rfl
      | false => exact absurd (Or.inl rfl) ready
    have got := rank_getProperty offer self (some (wanted atoms targetFormat))
    rcases isGot : self.getProperty (some (wanted atoms targetFormat)) with ⟨reply, rest⟩
    simp only [isGot] at got
    have before : rest.reader.phase = .polling := by
      rw [got.2, polling]
    simp only [ReaderEvent.rank]
    split
    · have phase := rank_setPhase offer rest
        (.returned (some ⟨rest.reader.incrData, targetFormat⟩))
      simp only [before, ReaderPhase.rank] at phase
      omega
    · have same : rank offer { rest with
          reader := { rest.reader with incrData := rest.reader.incrData ++ reply.bytes } } =
            rank offer rest := rfl
      rw [same]
      omega

/-- Whatever happens, there is less to do afterwards. -/
theorem rank_step {event : TransferEvent}
    (stepped : self.step atoms targetFormat offer event = some next) :
    next.rank offer < self.rank offer := by
  cases event with
  | ownerAnswers =>
      simp only [step] at stepped
      split at stepped
      · rename_i data asked _
        obtain rfl := Option.some.inj stepped
        have written := rank_changeProperty offer self data
        simp only [rank, changeProperty, asked, Owner.rank] at written ⊢
        omega
      · rename_i asked _
        obtain rfl := Option.some.inj stepped
        simp only [rank, asked, Owner.rank, List.map_append, List.map_cons, List.map_nil,
          List.sum_append, List.sum_singleton, ReaderEvent.rank, List.length_nil]
        omega
      · cases stepped
  | ownerNotifies =>
      simp only [step] at stepped
      split at stepped
      · rename_i answered
        obtain rfl := Option.some.inj stepped
        simp only [rank, answered, Owner.rank, List.map_append, List.map_cons, List.map_nil,
          List.sum_append, List.sum_singleton, ReaderEvent.rank]
        omega
      · cases stepped
  | ownerSends =>
      simp only [step] at stepped
      split at stepped
      · rename_i segment left deleted notified _
        obtain rfl := Option.some.inj stepped
        have written := rank_changeProperty offer self ⟨segment, offer.type⟩
        simp only [rank, changeProperty, notified, Owner.rank, List.length_cons] at written ⊢
        omega
      · cases stepped
  | readerPolls =>
      simp only [step] at stepped
      split at stepped
      · rename_i converted events polling polled
        obtain rfl := Option.some.inj stepped
        have before : { self with events }.reader.phase = .polling := polling
        have handled := rank_handleReadSelectionNotify atoms offer before converted
        simp only [rank, polled, List.map_cons, List.sum_cons, ReaderEvent.rank] at handled ⊢
        omega
      · rename_i newValue events polling polled
        obtain rfl := Option.some.inj stepped
        have before : { self with events }.reader.phase = .polling := polling
        have handled := rank_handleReadPropertyNotify atoms targetFormat offer before newValue
        simp only [rank, polled, List.map_cons, List.sum_cons] at handled ⊢
        omega
      · cases stepped
  | readerStartsIncr =>
      simp only [step] at stepped
      split at stepped
      · rename_i starting
        obtain rfl := Option.some.inj stepped
        have got := rank_getProperty offer self (some atoms.incr)
        have before : (self.getProperty (some atoms.incr)).2.reader.phase = .startingIncr := by
          rw [got.2, starting]
        simp only [rank, before, ReaderPhase.rank] at got ⊢
        omega
      · cases stepped
  | timeOut =>
      simp only [step] at stepped
      split at stepped
      · rename_i polling
        obtain rfl := Option.some.inj stepped
        have phase := rank_setPhase offer self (.returned none)
        simp only [polling, ReaderPhase.rank] at phase
        omega
      · cases stepped

end Transfer

theorem Reached.of_run {targetFormat : Atom} {offer : Offer} {events : List TransferEvent}
    {last : Transfer} (conforms : offer.Conforms atoms)
    (run : Run (Transfer.step atoms targetFormat offer) (fun _ _ => True) .start events last) :
    Reached atoms targetFormat offer (.timeOut ∈ events) last := by
  apply run.invariant (fun events => Reached atoms targetFormat offer (.timeOut ∈ events))
  · exact .asked
  · intro events transfer event next before _ stepped
    apply (before.step conforms stepped).mono
    rintro (earlier | rfl)
    · exact List.mem_append_left _ earlier
    · exact List.mem_append_right _ List.mem_cons_self

theorem Reached.result_eq {targetFormat : Atom} {offer : Offer} {timedOut : Prop}
    {transfer : Transfer} (reached : Reached atoms targetFormat offer timedOut transfer)
    {result : Option ClipboardData} (phase : transfer.reader.phase = .returned result) :
    result = offer.result atoms targetFormat ∨ result = none ∧ timedOut := by
  cases reached with
  | returned isResult isPhase =>
      rw [phase] at isPhase
      obtain rfl : result = _ := ReaderPhase.returned.inj isPhase
      exact isResult
  | _ => cases phase

namespace Transfer

variable {targetFormat : Atom} {offer : Offer}

end Transfer

end Gpui.X11Clipboard
