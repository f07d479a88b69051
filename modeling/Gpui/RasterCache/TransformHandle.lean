import Gpui.Library.Transition

/-!
# The compositor's transform handle

A transform is kept in several atomics and a generation, which is odd while a writer
stores the others.  Readers read again until the generation is the same and even before
and after.  Every step of a thread is one atomic operation, or the section under the
mutex of the update times; the atomics are sequentially consistent.

Floating-point numbers are given by their bits.
-/

namespace Gpui

open Gpui.Library

/-- The bits of an `f32`. -/
abbrev F32 := UInt32

namespace F32

def magnitude (self : F32) : UInt32 :=
  self &&& 0x7FFFFFFF

def isFinite (self : F32) : Bool :=
  magnitude self < 0x7F800000

def isNan (self : F32) : Bool :=
  0x7F800000 < magnitude self

/-- `self > 0.` -/
def isPositive (self : F32) : Bool :=
  !isNan self && 0 < self && self < 0x80000000

/-- `self == other`: zeros are equal whatever their signs. -/
def partialEq (self other : F32) : Bool :=
  !isNan self && !isNan other && (self = other || magnitude (self ||| other) = 0)

end F32

structure RasterCompositorTransform where
  scale : F32
  translationX : F32
  translationY : F32
deriving DecidableEq, Repr

namespace RasterCompositorTransform

/-- `RasterCompositorTransform::new`. -/
def ofParts (scale translationX translationY : F32) : Option RasterCompositorTransform :=
  if F32.isFinite scale && F32.isPositive scale && F32.isFinite translationX &&
      F32.isFinite translationY then some ⟨scale, translationX, translationY⟩
  else none

def partialEq (self other : RasterCompositorTransform) : Bool :=
  F32.partialEq self.scale other.scale && F32.partialEq self.translationX other.translationX &&
    F32.partialEq self.translationY other.translationY

end RasterCompositorTransform

variable {Instant T : Type}

structure RasterCompositorTransformState (Instant : Type) where
  generation : UInt64
  scaleBits : UInt32
  translationXBits : UInt32
  translationYBits : UInt32
  updates : List (UInt64 × Instant)

namespace RasterCompositorTransformState

def new (initial : RasterCompositorTransform) (now : Instant) :
    RasterCompositorTransformState Instant where
  generation := 0
  scaleBits := initial.scale
  translationXBits := initial.translationX
  translationYBits := initial.translationY
  updates := [(0, now)]

/-- The transform in the atomics. -/
def transform (self : RasterCompositorTransformState Instant) : RasterCompositorTransform :=
  ⟨self.scaleBits, self.translationXBits, self.translationYBits⟩

/-- Add a time, and keep the last 128 of them. -/
def pushUpdate (self : RasterCompositorTransformState Instant) (revision : UInt64)
    (updatedAt : Instant) : RasterCompositorTransformState Instant :=
  let updates := self.updates ++ [(revision, updatedAt)]
  { self with updates := updates.drop (updates.length - 128) }

def updatedAt (self : RasterCompositorTransformState Instant) (revision : UInt64) :
    Option Instant :=
  (self.updates.reverse.find? fun entry => entry.1 = revision).map Prod.snd

end RasterCompositorTransformState

/-- The arguments of `update_at`. -/
structure TransformUpdate (Instant : Type) where
  transform : RasterCompositorTransform
  updatedAt : Instant
deriving DecidableEq

/-- What a writer stores next. -/
inductive TransformStore where
  | scale
  | translationX
  | translationY
  | updates
  | generation
deriving DecidableEq, Repr

/-- Where a thread is.  A snapshot is taken for its own sake, or by an update that goes on
after it. -/
inductive TransformPc (Instant : Type) where
  | idle
  | before (update : Option (TransformUpdate Instant))
  | readScale (update : Option (TransformUpdate Instant)) (before : UInt64)
  | readX (update : Option (TransformUpdate Instant)) (before : UInt64) (scale : UInt32)
  | readY (update : Option (TransformUpdate Instant)) (before : UInt64)
      (scale translationX : UInt32)
  | after (update : Option (TransformUpdate Instant)) (before : UInt64)
      (transform : RasterCompositorTransform)
  | load (update : TransformUpdate Instant)
  | exchange (update : TransformUpdate Instant) (generation : UInt64)
  | write (update : TransformUpdate Instant) (generation : UInt64) (store : TransformStore)
deriving DecidableEq

namespace TransformPc

def beginUpdate (update : TransformUpdate Instant) : TransformPc Instant :=
  match RasterCompositorTransform.ofParts update.transform.scale update.transform.translationX
      update.transform.translationY with
  | some transform => .before (some { update with transform })
  | none => .idle

/-- What follows a snapshot: an update of an equal transform is over. -/
def afterSnapshot (read : RasterCompositorTransform) :
    Option (TransformUpdate Instant) → TransformPc Instant
  | none => .idle
  | some update => if read.partialEq update.transform then .idle else .load update

end TransformPc

/-- The steps of the threads.  A snapshot that returns, and an update that claims the
generation or publishes, show what they do. -/
inductive TransformEvent (Instant T : Type) where
  | beginSnapshot (thread : T)
  | beginUpdate (thread : T) (update : TransformUpdate Instant)
  | advance (thread : T)
  | snapshot (thread : T) (revision : UInt64) (transform : RasterCompositorTransform)
  | claim (thread : T)
  | publish (thread : T) (revision : UInt64) (transform : RasterCompositorTransform)
deriving DecidableEq

structure RasterCompositorTransformHandle (Instant T : Type) where
  state : RasterCompositorTransformState Instant
  threads : T → TransformPc Instant

namespace RasterCompositorTransformHandle

/-- `None` for a transform that is not finite or has no positive scale. -/
def new (initial : RasterCompositorTransform) (now : Instant) :
    Option (RasterCompositorTransformHandle Instant T) :=
  (RasterCompositorTransform.ofParts initial.scale initial.translationX
    initial.translationY).map fun initial =>
      { state := .new initial now, threads := fun _ => .idle }

variable [DecidableEq T]

def goTo (self : RasterCompositorTransformHandle Instant T) (thread : T)
    (pc : TransformPc Instant) : RasterCompositorTransformHandle Instant T :=
  { self with threads := Function.update self.threads thread pc }

/-- An atomic operation that neither returns a snapshot nor claims nor publishes. -/
def advance (self : RasterCompositorTransformState Instant) :
    TransformPc Instant → Option (RasterCompositorTransformState Instant × TransformPc Instant)
  | .idle => none
  | .before update =>
      if self.generation &&& 1 ≠ 0 then some (self, .before update)
      else some (self, .readScale update self.generation)
  | .readScale update before => some (self, .readX update before self.scaleBits)
  | .readX update before scale => some (self, .readY update before scale self.translationXBits)
  | .readY update before scale translationX =>
      some (self, .after update before ⟨scale, translationX, self.translationYBits⟩)
  | .after update before _ =>
      if before = self.generation then none else some (self, .before update)
  | .load update =>
      if self.generation &&& 1 ≠ 0 then some (self, .load update)
      else some (self, .exchange update self.generation)
  | .exchange update generation =>
      if self.generation = generation then none else some (self, .load update)
  | .write update generation .scale =>
      some ({ self with scaleBits := update.transform.scale },
        .write update generation .translationX)
  | .write update generation .translationX =>
      some ({ self with translationXBits := update.transform.translationX },
        .write update generation .translationY)
  | .write update generation .translationY =>
      some ({ self with translationYBits := update.transform.translationY },
        .write update generation .updates)
  | .write update generation .updates =>
      some (self.pushUpdate ((generation + 2) / 2) update.updatedAt,
        .write update generation .generation)
  | .write _ _ .generation => none

def step (self : RasterCompositorTransformHandle Instant T) :
    TransformEvent Instant T → Option (RasterCompositorTransformHandle Instant T)
  | .beginSnapshot thread =>
      match self.threads thread with
      | .idle => some (self.goTo thread (.before none))
      | _ => none
  | .beginUpdate thread update =>
      match self.threads thread with
      | .idle => some (self.goTo thread (.beginUpdate update))
      | _ => none
  | .advance thread => do
      let (state, pc) ← advance self.state (self.threads thread)
      return { state, threads := Function.update self.threads thread pc }
  | .snapshot thread revision transform =>
      match self.threads thread with
      | .after update before read =>
          if before = self.state.generation ∧ revision = self.state.generation / 2 ∧
              transform = read then
            some (self.goTo thread (.afterSnapshot read update))
          else none
      | _ => none
  | .claim thread =>
      match self.threads thread with
      | .exchange update generation =>
          if self.state.generation = generation then
            some
              { state := { self.state with generation := generation + 1 }
                threads := Function.update self.threads thread (.write update generation .scale) }
          else none
      | _ => none
  | .publish thread revision transform =>
      match self.threads thread with
      | .write update generation .generation =>
          if revision = (generation + 2) / 2 ∧ transform = update.transform then
            some
              { state := { self.state with generation := generation + 2 }
                threads := Function.update self.threads thread .idle }
          else none
      | _ => none

end RasterCompositorTransformHandle

end Gpui
