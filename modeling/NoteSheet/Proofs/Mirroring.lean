import NoteSheet.Proofs.ExactSums
import NoteSheet.Proofs.Neighbors

/-!
# Opposite directions

Looking the other way from a candidate leads back to where the search began. Whether one box
lies beside another is the same comparison of edges from both sides. Whether they overlap
across is not: one side adds the slack where the other subtracts it. The two comparisons agree
if neither sum is rounded (`add_le_iff_le_sub`), and only these sums must be exact
(`Box.HasExactEdges`). An edge itself may have been rounded when it was computed.

Main statement: `Layout.opposite_directions_mirror`.
-/

namespace NoteSheet

/-! ## Exact sums and differences -/

namespace Number

/-- Two finite doubles whose sum is not rounded. -/
def ExactSum (x y : Float) : Prop :=
  ∃ a b, value? x = some a ∧ value? y = some b ∧ value? (x + y) = some (a + b)

/-- Two finite doubles whose difference is not rounded. -/
def ExactDifference (x y : Float) : Prop :=
  ∃ a b, value? x = some a ∧ value? y = some b ∧ value? (x - y) = some (a - b)

/-- What is added on one side of a comparison may be taken away on the other. -/
theorem add_le_iff_le_sub {x y z : Float} (hSum : ExactSum x z)
    (hDifference : ExactDifference y z) : x + z ≤ y ↔ x ≤ y - z := by
  obtain ⟨a, c, hX, hZ, hSum⟩ := hSum
  obtain ⟨b, c', hY, hZ', hDifference⟩ := hDifference
  obtain rfl := Option.some.inj (hZ.symm.trans hZ')
  rw [le_iff_value hSum hY, le_iff_value hX hDifference, le_sub_iff_add_le]

/-- A double that is an integer of a magnitude below some bound. -/
def IsIntegerBelow (bound : Int) (x : Float) : Prop :=
  ∃ n : Int, value? x = some (n : ℚ) ∧ |n| < bound

theorem isIntegerBelow_ofNat {n : Nat} {bound : Int} (h : n < bound) (hBound : bound ≤ 2 ^ 53) :
    IsIntegerBelow bound (Float.ofNat n) := by
  refine ⟨n, ?_, by rwa [Nat.abs_cast]⟩
  rw [value?_ofNat (by omega), Int.cast_natCast]

namespace IsIntegerBelow

variable {bound bound' : Int} {x y : Float}

/-- Integers of few bits are added exactly. -/
theorem exactSum (hX : IsIntegerBelow bound x) (hY : IsIntegerBelow bound' y)
    (hBound : bound + bound' ≤ 2 ^ 53) :
    ExactSum x y ∧ IsIntegerBelow (bound + bound') (x + y) := by
  obtain ⟨m, hX, hM⟩ := hX
  obtain ⟨n, hY, hN⟩ := hY
  have hBelow : |m + n| < bound + bound' := (abs_add_le m n).trans_lt (add_lt_add hM hN)
  have hDouble := hasDouble_intCast (hBelow.trans_le hBound)
  rw [Int.cast_add] at hDouble
  have hSum := value?_add hX hY hDouble
  exact ⟨⟨m, n, hX, hY, hSum⟩, m + n, by rw [hSum, Int.cast_add], hBelow⟩

theorem exactDifference (hX : IsIntegerBelow bound x) (hY : IsIntegerBelow bound' y)
    (hBound : bound + bound' ≤ 2 ^ 53) : ExactDifference x y := by
  obtain ⟨m, hX, hM⟩ := hX
  obtain ⟨n, hY, hN⟩ := hY
  have hBelow : |m - n| < bound + bound' := (abs_sub m n).trans_lt (add_lt_add hM hN)
  have hDouble := hasDouble_intCast (hBelow.trans_le hBound)
  rw [Int.cast_sub] at hDouble
  exact ⟨m, n, hX, hY, value?_sub hX hY hDouble⟩

end IsIntegerBelow

end Number

open Number

theorem isIntegerBelow_slack : IsIntegerBelow (2 ^ 50) slack := by
  have hTwo : ((2 : Nat) : Int) < 2 ^ 50 := by decide
  have hSlack : slack = Float.ofNat 2 := rfl
  rw [hSlack]
  exact isIntegerBelow_ofNat hTwo (by decide)

/-! ## Boxes -/

namespace Box

/-- A box none of whose edges is rounded when it is compared with the slack. -/
structure HasExactEdges (box : Box) : Prop where
  left : ExactSum box.x slack
  top : ExactSum box.y slack
  right : ExactDifference box.right slack
  bottom : ExactDifference box.bottom slack

/-- A box at integers of a magnitude below some bound, which its sizes are too. -/
structure IsIntegerBelow (bound : Int) (box : Box) : Prop where
  x : Number.IsIntegerBelow bound box.x
  y : Number.IsIntegerBelow bound box.y
  width : Number.IsIntegerBelow bound box.width
  height : Number.IsIntegerBelow bound box.height

/-- Integers in range leave the bits that sums with a size and with the slack need. -/
theorem IsIntegerBelow.hasExactEdges {box : Box} (h : box.IsIntegerBelow (2 ^ 50)) :
    box.HasExactEdges := by
  have hRight : Number.IsIntegerBelow _ box.right := (h.x.exactSum h.width (by decide)).2
  have hBottom : Number.IsIntegerBelow _ box.bottom := (h.y.exactSum h.height (by decide)).2
  exact ⟨(h.x.exactSum isIntegerBelow_slack (by decide)).1,
    (h.y.exactSum isIntegerBelow_slack (by decide)).1,
    hRight.exactDifference isIntegerBelow_slack (by decide),
    hBottom.exactDifference isIntegerBelow_slack (by decide)⟩

variable {first second : Box} (hFirst : first.HasExactEdges) (hSecond : second.HasExactEdges)
include hFirst hSecond

theorem overlapsVertically_comm :
    first.overlapsVertically second = second.overlapsVertically first := by
  unfold overlapsVertically
  rw [Bool.eq_iff_iff, Bool.and_eq_true, Bool.and_eq_true, decide_eq_true_eq, decide_eq_true_eq,
    decide_eq_true_eq, decide_eq_true_eq, add_le_iff_le_sub hSecond.top hFirst.bottom,
    add_le_iff_le_sub hFirst.top hSecond.bottom]
  exact and_comm

theorem overlapsHorizontally_comm :
    first.overlapsHorizontally second = second.overlapsHorizontally first := by
  unfold overlapsHorizontally
  rw [Bool.eq_iff_iff, Bool.and_eq_true, Bool.and_eq_true, decide_eq_true_eq, decide_eq_true_eq,
    decide_eq_true_eq, decide_eq_true_eq, add_le_iff_le_sub hSecond.left hFirst.right,
    add_le_iff_le_sub hFirst.left hSecond.right]
  exact and_comm

/-- **Back again**: what one direction accepts is accepted from there in the opposite one. -/
theorem accepts_opposite (direction : Direction) :
    direction.opposite.accepts second first = direction.accepts first second := by
  have hVertically := overlapsVertically_comm hFirst hSecond
  have hHorizontally := overlapsHorizontally_comm hFirst hSecond
  cases direction with
  | left => exact congrArg (_ && ·) hVertically.symm
  | right => exact congrArg (_ && ·) hVertically.symm
  | up => exact congrArg (_ && ·) hHorizontally.symm
  | down => exact congrArg (_ && ·) hHorizontally.symm

end Box

/-! ## Two siblings -/

namespace Layout

variable {layout : Layout} {origin other : Element}

/-- Where there is one sibling, it is found just where it is accepted. -/
theorem neighbor?_eq_some_iff_of_siblings (hAt : layout.elementAt? origin.path = some origin)
    (hOnly : layout.siblings origin.path = [other]) (hAttached : other.popup = false)
    (direction : Direction) :
    layout.neighbor? direction .anything origin.path = some other.path ↔
      direction.accepts origin.box other.box = true := by
  have hCandidate : origin.isCandidate other direction .anything =
      direction.accepts origin.box other.box := by
    unfold Element.isCandidate
    rw [hAttached]
    rfl
  rw [neighbor?_of_elementAt? hAt, candidates, hOnly]
  by_cases hAccepts : direction.accepts origin.box other.box = true
  · rw [List.filter_cons, if_pos (hCandidate.trans hAccepts)]
    exact ⟨fun _ => hAccepts, fun _ => rfl⟩
  · rw [List.filter_cons, if_neg (by rwa [hCandidate])]
    exact ⟨nofun, fun h => absurd h hAccepts⟩

/-- A sibling is placed. -/
theorem elementAt?_of_mem_siblings {path : Path} (h : other ∈ layout.siblings path) :
    layout.elementAt? other.path = some other := by
  unfold siblings at h
  exact elementAt?_of_mem (Array.mem_toList_iff.mp (List.mem_of_mem_filter h))

/-- **Opposite directions mirror each other.** Between boxes whose edges are not rounded when
they are compared, a direction accepts the second from the first just if the opposite direction
accepts the first from the second. So of two elements that are each other's only siblings, and
no detached copies, a search from the first finds the second just if the search the other way
from the second finds the first. Boxes at integers of a magnitude below 2 ^ 50 have such edges. -/
theorem opposite_directions_mirror :
    (∀ (direction : Direction) (first second : Box), first.HasExactEdges → second.HasExactEdges →
      direction.accepts first second = direction.opposite.accepts second first) ∧
    (∀ (layout : Layout) (direction : Direction) (first second : Element),
      first.box.HasExactEdges → second.box.HasExactEdges →
      first.popup = false → second.popup = false →
      layout.siblings first.path = [second] → layout.siblings second.path = [first] →
      (layout.neighbor? direction .anything first.path = some second.path ↔
        layout.neighbor? direction.opposite .anything second.path = some first.path)) ∧
    ∀ box : Box, box.IsIntegerBelow (2 ^ 50) → box.HasExactEdges := by
  refine ⟨?_, ?_, fun box h => h.hasExactEdges⟩
  · intro direction first second hFirst hSecond
    exact (Box.accepts_opposite hFirst hSecond direction).symm
  · intro layout direction first second hFirst hSecond hAttached hAttached' hSecondOnly hFirstOnly
    have hFirstAt := elementAt?_of_mem_siblings (hFirstOnly ▸ List.mem_singleton_self first)
    have hSecondAt := elementAt?_of_mem_siblings (hSecondOnly ▸ List.mem_singleton_self second)
    rw [neighbor?_eq_some_iff_of_siblings hFirstAt hSecondOnly hAttached',
      neighbor?_eq_some_iff_of_siblings hSecondAt hFirstOnly hAttached,
      Box.accepts_opposite hFirst hSecond]

/-- A note to the right of another and a little below it: each is found from the other. -/
theorem opposite_directions_mirror_pair :
    let first := note 2 ⟨0, 0, 10, 10⟩
    let second := note 3 ⟨20, 4, 10, 10⟩
    let layout := placing [first, second]
    first.box.HasExactEdges ∧ second.box.HasExactEdges ∧
      Direction.left.accepts second.box first.box = true ∧
      layout.siblings first.path = [second] ∧ layout.siblings second.path = [first] ∧
      layout.neighbor? .right .anything first.path = some second.path ∧
      layout.neighbor? .left .anything second.path = some first.path := by
  intro first second layout
  obtain ⟨hAccepts, hMirror, hExact⟩ := opposite_directions_mirror
  have hInteger (n : Nat) (h : (n : Int) < 2 ^ 50) : IsIntegerBelow (2 ^ 50) (Float.ofNat n) :=
    isIntegerBelow_ofNat h (by decide)
  have hZero := hInteger 0 (by decide)
  have hTen := hInteger 10 (by decide)
  have hFirst : first.box.HasExactEdges := hExact _ ⟨hZero, hZero, hTen, hTen⟩
  have hSecond : second.box.HasExactEdges :=
    hExact _ ⟨hInteger 20 (by decide), hInteger 4 (by decide), hTen, hTen⟩
  have hElements : layout.elements.toList = [first, second] :=
    elements_placing (by decide +kernel)
  have hSecondOnly : layout.siblings first.path = [second] := by
    rw [siblings, hElements]
    decide +kernel
  have hFirstOnly : layout.siblings second.path = [first] := by
    rw [siblings, hElements]
    decide +kernel
  have hAt : layout.elementAt? first.path = some first :=
    elementAt?_of_mem_siblings (hFirstOnly ▸ List.mem_singleton_self first)
  have hBeside : Direction.right.accepts first.box second.box = true := by decide +kernel
  have hFound : layout.neighbor? .right .anything first.path = some second.path :=
    (neighbor?_eq_some_iff_of_siblings hAt hSecondOnly rfl .right).mpr hBeside
  have hBack := (hMirror layout .right first second hFirst hSecond rfl rfl hSecondOnly
    hFirstOnly).mp hFound
  have hBesideBack := (hAccepts .right _ _ hFirst hSecond).symm.trans hBeside
  exact ⟨hFirst, hSecond, hBesideBack, hSecondOnly, hFirstOnly, hFound, hBack⟩

end Layout

end NoteSheet
