import Mathlib.Data.Prod.Lex
import NoteSheet.Proofs.NotANumber

/-!
# The order of numbers

Doubles are compared by sign, then exponent, then mantissa; the two zeros are equal, and
what is not a number compares with nothing. Here every number is given its standing in a
linear order (`standing?`), so that the comparisons of doubles are those of their
standings (`lt_iff`, `le_iff`) and inherit what holds of a linear order.
-/

namespace NoteSheet.Number

open Float.Model

/-- Sign, exponent and mantissa of an unpacked double, so signed that the lexicographic order
is the order of numbers. The sign is doubled at infinity. -/
def standing? : UnpackedFloat → Option (Int ×ₗ Int ×ₗ Int)
  | .notANumber => none
  | .infinity .negative => some (toLex (-2, toLex (0, 0)))
  | .finite .negative mantissa exponent _ => some (toLex (-1, toLex (-exponent, -mantissa)))
  | .zero _ => some (toLex (0, toLex (0, 0)))
  | .finite .positive mantissa exponent _ => some (toLex (1, toLex (exponent, mantissa)))
  | .infinity .positive => some (toLex (2, toLex (0, 0)))

theorem compare_natCast (m n : Nat) : compare (m : Int) (n : Int) = compare m n := by
  simp only [compare, compareOfLessAndEq, Int.ofNat_lt, Int.natCast_inj]

theorem compare_neg (a b : Int) : compare (-a) (-b) = (compare a b).swap := by
  rw [← Std.OrientedOrd.eq_swap]
  simp only [compare, compareOfLessAndEq, Int.neg_lt_neg_iff, Int.neg_inj, eq_comm]

/-- Comparing doubles is comparing their standings. -/
theorem compare_eq_standing (x y : UnpackedFloat) :
    x.compare y = (standing? x).bind fun a => (standing? y).map (compare a) := by
  rcases x with ⟨_ | _⟩ | _ | _ | ⟨_ | _, m, e, hm⟩ <;>
    rcases y with ⟨_ | _⟩ | _ | _ | ⟨_ | _, n, f, hn⟩ <;> try rfl
  · show some ((compare e f).then (compare m n)).swap =
      some ((compare (-e) (-f)).then (compare (-(m : Int)) (-n)))
    rw [compare_neg e, compare_neg m, compare_natCast, Ordering.swap_then]
  · show some ((compare e f).then (compare m n)) =
      some ((compare e f).then (compare (m : Int) n))
    rw [compare_natCast]

theorem lt_iff {x y : Float} :
    x < y ↔ ∃ a b, standing? x.toModel.unpack = some a ∧ standing? y.toModel.unpack = some b ∧
      a < b := by
  have hLt : x < y ↔ x.toModel.unpack.compare y.toModel.unpack = some .lt := by
    show decide (x.toModel.unpack.lt y.toModel.unpack = true) = true ↔ _
    rw [decide_eq_true_eq]
    exact beq_iff_eq
  rw [hLt, compare_eq_standing]
  cases standing? x.toModel.unpack <;> cases standing? y.toModel.unpack <;>
    simp [compare_lt_iff_lt, -Lex.exists, -Prod.exists]

theorem le_iff {x y : Float} :
    x ≤ y ↔ ∃ a b, standing? x.toModel.unpack = some a ∧ standing? y.toModel.unpack = some b ∧
      a ≤ b := by
  have hLe : x ≤ y ↔ (x.toModel.unpack.compare y.toModel.unpack).any (·.isLE) = true := by
    show decide (x.toModel.unpack.le y.toModel.unpack = true) = true ↔ _
    rw [decide_eq_true_eq]
    rfl
  rw [hLe, compare_eq_standing]
  cases standing? x.toModel.unpack <;> cases standing? y.toModel.unpack <;>
    simp [Ordering.isLE_iff_ne_gt, compare_le_iff_le, -Lex.exists, -Prod.exists]

protected theorem lt_irrefl (x : Float) : ¬ x < x := by
  intro h
  obtain ⟨a, b, hA, hB, hLt⟩ := lt_iff.mp h
  rw [hA] at hB
  cases hB
  exact hLt.ne rfl

protected theorem lt_trans {x y z : Float} (h : x < y) (h' : y < z) : x < z := by
  obtain ⟨a, b, hA, hB, hLt⟩ := lt_iff.mp h
  obtain ⟨b', c, hB', hC, hLt'⟩ := lt_iff.mp h'
  rw [hB] at hB'
  cases hB'
  exact lt_iff.mpr ⟨a, c, hA, hC, hLt.trans hLt'⟩

protected theorem lt_of_lt_of_le {x y z : Float} (h : x < y) (h' : y ≤ z) : x < z := by
  obtain ⟨a, b, hA, hB, hLt⟩ := lt_iff.mp h
  obtain ⟨b', c, hB', hC, hLe⟩ := le_iff.mp h'
  rw [hB] at hB'
  cases hB'
  exact lt_iff.mpr ⟨a, c, hA, hC, hLt.trans_le hLe⟩

end NoteSheet.Number
