/-!
# Boxes in pixel space

Points and axis-aligned boxes of the layout. The origin is the top left corner
and `y` grows downward. Edges and centers are computed in double precision in
the order written here, so their last bits are part of the meaning.
-/

namespace NoteSheet

/-- A point in pixel space. -/
structure Point where
  x : Float
  y : Float

/-- The Euclidean distance between two points. -/
def Point.distance (a b : Point) : Float :=
  let dx := a.x - b.x
  let dy := a.y - b.y
  (dx * dx + dy * dy).sqrt

/-- An axis-aligned box. -/
structure Box where
  /-- The left edge. -/
  x : Float
  /-- The top edge. -/
  y : Float
  width : Float
  height : Float
deriving DecidableEq

namespace Box

/-- The coordinate of the right edge. -/
def right (box : Box) : Float := box.x + box.width

/-- The coordinate of the bottom edge. -/
def bottom (box : Box) : Float := box.y + box.height

/-- The middle of the box. -/
def center (box : Box) : Point := ⟨box.x + box.width / 2, box.y + box.height / 2⟩

end Box

end NoteSheet
