import NoteSheet.Direction
import NoteSheet.Layout

/-!
# Neighbors

From a placed element and a direction, the neighbor is the sibling whose box
lies in that direction, overlaps the origin's box across it, and has the center
nearest to the origin's center. Detached copies are never neighbors. Of several
siblings at the same distance the first in layout order is taken.

Edges are compared with a slack of two pixels, so that boxes which touch, or
overlap by no more than a rounding error, count as lying side by side.
-/

namespace NoteSheet

/-- Which siblings a search may land on. -/
inductive Filter where
  /-- Siblings of every kind. -/
  | anything
  /-- Pages and images, as in arrow-key navigation. -/
  | pagesAndImages
deriving DecidableEq, Repr

/-- Whether a filter lets a search land on an element. -/
def Filter.admits : Filter → Element → Bool
  | anything, _ => true
  | pagesAndImages, element => element.kind.isNavigable

/-- The number of pixels by which edges may miss each other. -/
def slack : Float := 2

/-- Whether two boxes share a stretch of the vertical axis. -/
def Box.overlapsVertically (origin candidate : Box) : Bool :=
  candidate.y + slack ≤ origin.bottom && candidate.bottom - slack ≥ origin.y

/-- Whether two boxes share a stretch of the horizontal axis. -/
def Box.overlapsHorizontally (origin candidate : Box) : Bool :=
  candidate.x + slack ≤ origin.right && candidate.right - slack ≥ origin.x

/-- Whether `candidate` lies in a direction from `origin` and overlaps it across. -/
def Direction.accepts (direction : Direction) (origin candidate : Box) : Bool :=
  match direction with
  | left => candidate.right - slack ≤ origin.x && origin.overlapsVertically candidate
  | right => candidate.x ≥ origin.right - slack && origin.overlapsVertically candidate
  | up => candidate.bottom - slack ≤ origin.y && origin.overlapsHorizontally candidate
  | down => candidate.y ≥ origin.bottom - slack && origin.overlapsHorizontally candidate

/-- Whether a search from `origin` may land on `candidate`, siblings presumed. -/
def Element.isCandidate (origin candidate : Element) (direction : Direction) (filter : Filter) :
    Bool :=
  !candidate.popup && filter.admits candidate && direction.accepts origin.box candidate.box

/-- The distance between the centers of two elements. -/
def Element.distance (a b : Element) : Float := a.box.center.distance b.box.center

/-- The distance in the coordinates of the two boxes. -/
theorem Element.distance_eq (a b : Element) :
    let dx := (a.box.x + a.box.width / 2) - (b.box.x + b.box.width / 2)
    let dy := (a.box.y + a.box.height / 2) - (b.box.y + b.box.height / 2)
    a.distance b = (dx * dx + dy * dy).sqrt := rfl

/-- One step of a search for the least distance: a candidate gives way to the
best one so far exactly when its distance is at least as large. -/
def nearer {α : Type} (distance : α → Float) (best : Option (α × Float)) (candidate : α) :
    Option (α × Float) :=
  let d := distance candidate
  match best with
  | some (_, least) => if d ≥ least then best else some (candidate, d)
  | none => some (candidate, d)

/-- The first candidate of least distance. -/
def nearest? {α : Type} (distance : α → Float) (candidates : List α) : Option α :=
  (candidates.foldl (nearer distance) none).map Prod.fst

namespace Layout

/-- The siblings on which a search from `origin` may land, in layout order. -/
def candidates (layout : Layout) (origin : Element) (direction : Direction) (filter : Filter) :
    List Element :=
  (layout.siblings origin.path).filter fun sibling => origin.isCandidate sibling direction filter

/-- The path of the neighbor of the element at a path. -/
def neighbor? (layout : Layout) (direction : Direction) (filter : Filter) (path : Path) :
    Option Path := do
  let origin ← layout.elementAt? path
  let found ← nearest? origin.distance (layout.candidates origin direction filter)
  return found.path

/-- The path that `steps` moves from neighbor to neighbor lead to. -/
def hop? (layout : Layout) (direction : Direction) (filter : Filter) : Nat → Path → Option Path
  | 0, path => some path
  | steps + 1, path =>
      match layout.neighbor? direction filter path with
      | none => none
      | some next => layout.hop? direction filter steps next

end Layout

end NoteSheet
