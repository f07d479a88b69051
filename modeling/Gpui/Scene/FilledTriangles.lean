import Gpui.Scene.Primitive

/-!
# Paths of filled triangles

A path is built one triangle at a time, its bounds growing by unions from the point where
it starts, and scaled as a whole.  `filledTriangles` makes the scaled path at once, with
the rectangle around all vertices.
-/

namespace Gpui

variable {K : Type} [Field K] [LinearOrder K] {B : Type}

namespace Bounds

/-- The rectangle without size at a point. -/
def ofPoint (origin : Point K) : Bounds K :=
  ⟨origin, ⟨0, 0⟩⟩

omit [LinearOrder K] in
@[simp]
theorem ofPoint_bottomRight (origin : Point K) : (ofPoint origin).bottomRight = origin := by
  simp [ofPoint, bottomRight]

omit [LinearOrder K] in
theorem ofPoint_eq_fromCorners (origin : Point K) : ofPoint origin = fromCorners origin origin := by
  simp [ofPoint, fromCorners]

/-- Unions with points keep the corners that are furthest out. -/
theorem foldl_union_ofPoint (points : List (Point K)) (topLeft bottomRight : Point K) :
    points.foldl (fun bounds point => bounds.union (ofPoint point))
        (fromCorners topLeft bottomRight) =
      fromCorners (points.foldl Point.min topLeft) (points.foldl Point.max bottomRight) := by
  induction points generalizing topLeft bottomRight with
  | nil => rfl
  | cons point rest ih =>
      rw [List.foldl_cons, List.foldl_cons, List.foldl_cons, ← ih, union, fromCorners_origin,
        fromCorners_bottomRight, ofPoint_bottomRight]
      rfl

end Bounds

/-- `ContentMask::default`. -/
def ContentMask.zero : ContentMask K :=
  ⟨Bounds.ofPoint ⟨0, 0⟩⟩

omit [LinearOrder K] in
theorem ContentMask.scale_zero (factor : K) : (zero : ContentMask K).scale factor = zero := by
  simp [scale, zero, Bounds.ofPoint, Bounds.scale, Point.scale, Size.scale]

def PathVertex.scale (self : PathVertex K) (factor : K) : PathVertex K where
  xyPosition := self.xyPosition.scale factor
  stPosition := self.stPosition
  contentMask := self.contentMask.scale factor

/-- A path with its colour and the number of its contours, which the scene does not read. -/
structure ColoredPath (K B : Type) extends Path K where
  color : B
  contourCount : Nat
deriving DecidableEq, Repr

/-- The corners of a triangle. -/
abbrev Triangle (K : Type) :=
  Point K × Point K × Point K

def Triangle.corners (self : Triangle K) : List (Point K) :=
  [self.1, self.2.1, self.2.2]

/-- The whole triangles of a list of vertices. -/
def triangles : List (Point K) → List (Triangle K)
  | first :: second :: third :: rest => (first, second, third) :: triangles rest
  | _ => []

namespace ColoredPath

def new [Inhabited B] (start : Point K) : ColoredPath K B where
  id := 0
  order := 0
  bounds := .ofPoint start
  contentMask := .zero
  vertices := []
  start := start
  current := start
  color := default
  contourCount := 0

def scale (self : ColoredPath K B) (factor : K) : ColoredPath K B :=
  { self with
    bounds := self.bounds.scale factor
    contentMask := self.contentMask.scale factor
    vertices := self.vertices.map (PathVertex.scale · factor)
    start := self.start.scale factor
    current := self.current.scale factor }

def pushTriangle (self : ColoredPath K B) (xy st : Triangle K) : ColoredPath K B :=
  { self with
    bounds := ((self.bounds.union (.ofPoint xy.1)).union (.ofPoint xy.2.1)).union
      (.ofPoint xy.2.2)
    vertices := self.vertices ++ [⟨xy.1, st.1, .zero⟩, ⟨xy.2.1, st.2.1, .zero⟩,
      ⟨xy.2.2, st.2.2, .zero⟩] }

/-- The `st` position of a vertex of a filled triangle. -/
def filled : Point K :=
  ⟨0, 1⟩

/-- The path that starts at the first vertex and to which each triangle is pushed. -/
def pushed [Inhabited B] (triangles : List (Triangle K)) : Option (ColoredPath K B) :=
  match triangles with
  | [] => none
  | first :: _ => some (triangles.foldl
      (fun path triangle => path.pushTriangle triangle (filled, filled, filled)) (new first.1))

def filledTriangles (vertices : List (Point K)) (scaleFactor : K) (contentMask : ContentMask K)
    (color : B) : Option (ColoredPath K B) := do
  let vertices := vertices.take (vertices.length - vertices.length % 3)
  let first ← vertices.head?
  let (topLeft, bottomRight, scaledVertices) := vertices.foldl
    (fun (topLeft, bottomRight, scaled) vertex =>
      (topLeft.min vertex, bottomRight.max vertex,
        scaled ++ [⟨vertex.scale scaleFactor, filled, .zero⟩]))
    (first, first, [])
  let start := first.scale scaleFactor
  some
    { id := 0
      order := 0
      bounds := (Bounds.fromCorners topLeft bottomRight).scale scaleFactor
      contentMask := contentMask.scale scaleFactor
      vertices := scaledVertices
      start := start
      current := start
      color := color
      contourCount := 0 }

/-! ## Both constructions agree -/

omit [Field K] [LinearOrder K] in
theorem take_eq_corners (vertices : List (Point K)) :
    vertices.take (vertices.length - vertices.length % 3) =
      (triangles vertices).flatMap Triangle.corners := by
  induction vertices using triangles.induct with
  | case1 first second third rest ih =>
      have whole : (rest.length + 3) - (rest.length + 3) % 3 =
          (rest.length - rest.length % 3) + 3 := by
        rw [Nat.add_mod_right]
        exact Nat.sub_add_comm (Nat.mod_le _ _)
      rw [triangles, List.flatMap_cons, ← ih]
      change (first :: second :: third :: rest).take ((rest.length + 3) - (rest.length + 3) % 3) = _
      rw [whole]
      rfl
  | case2 vertices few =>
      have none : triangles vertices = [] := by
        rw [triangles]
        exact few
      have short : vertices.length < 3 := by
        match vertices, few with
        | [], _ => exact Nat.zero_lt_succ 2
        | [_], _ => exact Nat.succ_lt_succ (Nat.zero_lt_succ 1)
        | [_, _], _ => exact Nat.lt_succ_self 2
        | first :: second :: third :: rest, few =>
            exact absurd rfl (few first second third rest)
      rw [none, Nat.mod_eq_of_lt short, Nat.sub_self, List.take_zero, List.flatMap_nil]

/-- Triangles pushed one after the other add their corners to the vertices and the bounds. -/
theorem foldl_pushTriangle (triangles : List (Triangle K)) (path : ColoredPath K B) :
    triangles.foldl (fun path triangle => path.pushTriangle triangle (filled, filled, filled))
        path =
      { path with
        bounds := (triangles.flatMap Triangle.corners).foldl
          (fun bounds point => bounds.union (.ofPoint point)) path.bounds
        vertices := path.vertices ++ (triangles.flatMap Triangle.corners).map
          fun point => ⟨point, filled, .zero⟩ } := by
  induction triangles generalizing path with
  | nil =>
      rw [List.flatMap_nil, List.map_nil, List.append_nil]
      rfl
  | cons triangle rest ih =>
      rw [List.foldl_cons, ih, List.flatMap_cons, List.foldl_append, List.map_append,
        ← List.append_assoc]
      rfl

/-- The one pass over the vertices finds the outermost corners and scales each vertex. -/
theorem foldl_corners (vertices : List (Point K)) (factor : K) (topLeft bottomRight : Point K)
    (scaled : List (PathVertex K)) :
    vertices.foldl
        (fun ((topLeft, bottomRight, scaled) : Point K × Point K × List (PathVertex K)) vertex =>
          (topLeft.min vertex, bottomRight.max vertex,
            scaled ++ [⟨vertex.scale factor, filled, .zero⟩]))
        (topLeft, bottomRight, scaled) =
      (vertices.foldl Point.min topLeft, vertices.foldl Point.max bottomRight,
        scaled ++ vertices.map fun vertex => ⟨vertex.scale factor, filled, .zero⟩) := by
  induction vertices generalizing topLeft bottomRight scaled with
  | nil => rw [List.map_nil, List.append_nil]; rfl
  | cons vertex rest ih =>
      rw [List.foldl_cons, ih, List.map_cons, List.append_assoc]
      rfl

/-- The path made at once is the one to which the triangles were pushed, with the mask and
the colour, scaled; without a whole triangle there is none. -/
theorem filledTriangles_eq [Inhabited B] (vertices : List (Point K)) (scaleFactor : K)
    (contentMask : ContentMask K) (color : B) :
    filledTriangles vertices scaleFactor contentMask color =
      (pushed (triangles vertices)).map fun (path : ColoredPath K B) =>
        scale { path with contentMask, color } scaleFactor := by
  rw [filledTriangles, take_eq_corners]
  cases whole : triangles vertices with
  | nil => rfl
  | cons triangle rest =>
      rw [pushed, foldl_pushTriangle, new, Bounds.ofPoint_eq_fromCorners,
        Bounds.foldl_union_ofPoint]
      have first : ((triangle :: rest).flatMap Triangle.corners).head? = some triangle.1 := rfl
      simp only [first, Option.bind_eq_bind, Option.bind_some, foldl_corners, Option.map_some,
        scale, List.nil_append, List.map_map]
      have scales : (fun vertex => (⟨vertex.scale scaleFactor, filled, .zero⟩ : PathVertex K)) =
          (PathVertex.scale · scaleFactor) ∘ fun vertex => ⟨vertex, filled, .zero⟩ := by
        funext vertex
        rw [Function.comp_apply, PathVertex.scale, ContentMask.scale_zero]
      rw [scales]

end ColoredPath

end Gpui
