import Mathlib.Algebra.Order.Field.Power
import Mathlib.Algebra.Order.Floor.Semifield
import Mathlib.Data.Int.Log
import Mathlib.Data.Rat.Floor
import Mathlib.Tactic.FieldSimp
import Mathlib.Tactic.Linarith
import Mathlib.Tactic.Positivity
import NoteSheet.Proofs.Doubles

/-!
# Rounding

Arithmetic on doubles works on a mantissa cut short, with two more bits that say how it
relates to the exact result: the round bit is the next bit, and the sticky bit says whether
anything but zeros follows. Here such an extended mantissa is the image of a rational number
(`extended`), and shifting it divides the number by two. So what rounding gives depends on the
exact result alone (`rounded`), not on the mantissa and exponent in which an operation found it.

Main statements: `roundWithAccuracy_eq_rounded` (rounding is a function of the exact result),
`rounded_of_isSignificand` (it keeps doubles), `pack_rounded_of_le` and `rounded_of_lt` (the
ends of the range), `round_eq_rounded` (rounding after a sum), `float_mul_eq`, `float_div_eq`
and `ofNat_eq_rounded` (the operations that reading a decimal uses).
-/

namespace NoteSheet.Rounding

open Float.Model UnpackedFloat

/-! ## Extended mantissas -/

/-- The extended mantissa that stands for a rational number that is not negative. -/
def extended (y : ℚ) : ExtendedMantissa where
  mantissa := ⌊y⌋₊
  roundBit := ⌊2 * y⌋₊ % 2 != 0
  stickyBit := (⌊2 * y⌋₊ : ℚ) != 2 * y

theorem natCast_floor_eq_half_iff {y : ℚ} :
    (⌊y⌋₊ : ℚ) = y ↔ ⌊2 * y⌋₊ % 2 = 0 ∧ (⌊2 * y⌋₊ : ℚ) = 2 * y := by
  constructor
  · intro hFloor
    have hDouble : ⌊2 * y⌋₊ = 2 * ⌊y⌋₊ := by
      rw [← hFloor]
      norm_cast
    rw [hDouble]
    refine ⟨by omega, ?_⟩
    push_cast
    rw [hFloor]
  · rintro ⟨hEven, hFloor⟩
    obtain ⟨k, hK⟩ := Nat.dvd_of_mod_eq_zero hEven
    rw [hK] at hFloor
    push_cast at hFloor
    have hY : y = k := by linarith
    rw [hY, Nat.floor_natCast]

/-- Shifting an extended mantissa halves what it stands for. -/
theorem shiftRightOne_extended (y : ℚ) :
    (extended y).shiftRightOne = extended (y / 2) := by
  have hHalf : 2 * (y / 2) = y := by ring
  unfold ExtendedMantissa.shiftRightOne extended
  rw [hHalf]
  congr 1
  · exact (Nat.floor_div_ofNat y 2).symm
  · rw [Bool.eq_iff_iff]
    simp only [Bool.or_eq_true, bne_iff_ne, ne_eq]
    rw [@natCast_floor_eq_half_iff y]
    tauto

theorem shiftRight_extended (y : ℚ) (n : Nat) :
    extended y >>> n = extended (y / 2 ^ n) := by
  show n.repeat ExtendedMantissa.shiftRightOne (extended y) = _
  induction n with
  | zero => simp [Nat.repeat]
  | succ n ih =>
      show ExtendedMantissa.shiftRightOne (n.repeat _ _) = _
      rw [ih, shiftRightOne_extended]
      congr 1
      ring

theorem ofMantissaAndAccuracy_exact (m : Nat) :
    ExtendedMantissa.ofMantissaAndAccuracy m .exact = extended m := by
  have hDouble : ⌊2 * (m : ℚ)⌋₊ = 2 * m := by norm_cast
  unfold ExtendedMantissa.ofMantissaAndAccuracy extended
  rw [hDouble, Nat.floor_natCast]
  simp

section Quotient

variable (a : Nat) {b : Nat} (h : 0 < b)
include h

theorem double_div : 2 * a / b = 2 * (a % b) / b + 2 * (a / b) := by
  have hTwo : 2 * a = 2 * (a % b) + b * (2 * (a / b)) := by
    have hDivMod := Nat.mod_add_div a b
    rw [Nat.mul_left_comm, ← Nat.mul_add, hDivMod]
  rw [hTwo, Nat.add_mul_div_left _ _ h]

theorem natCast_double_div_iff :
    ((2 * a / b : Nat) : ℚ) = 2 * ((a : ℚ) / b) ↔ b ∣ 2 * (a % b) := by
  have hB : (b : ℚ) ≠ 0 := by exact_mod_cast h.ne'
  have hTwice : 2 * ((a : ℚ) / b) = ((2 * a : Nat) : ℚ) / b := by push_cast; ring
  have hMod : 2 * a % b = 0 ↔ 2 * (a % b) % b = 0 := by
    rw [Nat.mul_mod, Nat.mul_mod 2 (a % b), Nat.mod_mod]
  rw [hTwice, eq_div_iff hB, Nat.dvd_iff_mod_eq_zero, ← hMod, ← Nat.dvd_iff_mod_eq_zero]
  norm_cast
  exact ⟨fun hEq => Dvd.intro_left _ hEq, Nat.div_mul_cancel⟩

theorem extended_div :
    extended ((a : ℚ) / b) = ⟨a / b, 2 * (a % b) / b != 0, !decide (b ∣ 2 * (a % b))⟩ := by
  have hFloor : ⌊2 * ((a : ℚ) / b)⌋₊ = 2 * a / b := by
    rw [← @Nat.floor_div_eq_div ℚ]
    congr 1
    push_cast
    ring
  have hLt := Nat.mod_lt a h
  have hRound : 2 * a / b % 2 = 2 * (a % b) / b := by
    rw [double_div a h, Nat.add_mul_mod_self_left]
    exact Nat.mod_eq_of_lt (Nat.div_lt_of_lt_mul (by omega))
  unfold extended
  rw [hFloor, Nat.floor_div_eq_div, hRound]
  congr 1
  rw [Bool.eq_iff_iff]
  simp [natCast_double_div_iff a h]

/-- The accuracy that a division notes down is that of the quotient. -/
theorem ofMantissaAndAccuracy_div :
    ExtendedMantissa.ofMantissaAndAccuracy (a / b) (accuracyOfFraction (a % b) b) =
      extended ((a : ℚ) / b) := by
  have hLt := Nat.mod_lt a h
  rw [extended_div a h]
  unfold accuracyOfFraction
  by_cases hZero : a % b = 0
  · rw [if_pos hZero, hZero]
    simp [ExtendedMantissa.ofMantissaAndAccuracy]
  · rw [if_neg hZero]
    -- the remainder is less than half of the divisor, half of it, or more
    rcases lt_trichotomy (2 * (a % b)) b with hLess | hHalf | hMore
    · have hQuot : 2 * (a % b) / b = 0 := Nat.div_eq_of_lt hLess
      have hDvd : ¬ b ∣ 2 * (a % b) := Nat.not_dvd_of_pos_of_lt (by omega) hLess
      rw [Nat.compare_eq_lt.mpr hLess, hQuot, decide_eq_false hDvd]
      rfl
    · have hQuot : 2 * (a % b) / b = 1 := by rw [hHalf, Nat.div_self h]
      have hDvd : b ∣ 2 * (a % b) := by rw [hHalf]
      rw [Nat.compare_eq_eq.mpr hHalf, hQuot, decide_eq_true hDvd]
      rfl
    · have hQuot : 2 * (a % b) / b = 1 := Nat.div_eq_of_lt_le (by omega) (by omega)
      have hDvd : ¬ b ∣ 2 * (a % b) := fun hDvd => by
        have hEq := Nat.div_mul_cancel hDvd
        rw [hQuot] at hEq
        omega
      rw [Nat.compare_eq_gt.mpr hMore, hQuot, decide_eq_false hDvd]
      rfl

end Quotient

/-! ## Rounding -/

/-- The double with a mantissa and an exponent; without a mantissa it is zero. -/
def ofParts (m : Nat) (e : Int) : UnpackedFloat :=
  if h : m = 0 then .zero .positive else .finite .positive m e (Nat.pos_of_ne_zero h)

theorem ofParts_of_pos {m : Nat} (h : 0 < m) (e : Int) :
    ofParts m e = .finite .positive m e h := dif_neg h.ne'

theorem ofParts_ne_notANumber (m : Nat) (e : Int) : ofParts m e ≠ .notANumber := by
  intro hEq
  unfold ofParts at hEq
  rcases dite_eq_iff.mp hEq with ⟨_, hZero⟩ | ⟨_, hFinite⟩
  · cases hZero
  · cases hFinite

/-- What rounding does after its first shift. -/
def finish (em : ExtendedMantissa) (e : Int) : UnpackedFloat :=
  let shifted := shiftToTargetExponent Format.binary64 em.roundedMantissa e .exact
  ofParts shifted.1.mantissa shifted.2

/-- The exponent of the last bit that a double next to a positive rational keeps. -/
def grid (v : ℚ) : Int := max (Int.log 2 v - 52) (-1074)

/-- What rounding makes of a positive rational, its exponent unbounded above. -/
def rounded (v : ℚ) : UnpackedFloat := finish (extended (v / 2 ^ grid v)) (grid v)

/-! ### Logarithms -/

theorem log_eq {v : ℚ} {n : Int} (hLow : 2 ^ n ≤ v) (hHigh : v < 2 ^ (n + 1)) :
    Int.log 2 v = n := by
  have hPos : 0 < v := lt_of_lt_of_le (by positivity) hLow
  have hLe : n ≤ Int.log 2 v :=
    (Int.zpow_le_iff_le_log one_lt_two hPos).mp (by exact_mod_cast hLow)
  have hLt : Int.log 2 v < n + 1 :=
    (Int.lt_zpow_iff_log_lt one_lt_two hPos).mp (by exact_mod_cast hHigh)
  omega

/-- Cutting a number short keeps its logarithm, unless nothing is left. -/
theorem log_of_truncated {v : ℚ} {m : Nat} {e : Int} (hm : 0 < m) (hLow : m * 2 ^ e ≤ v)
    (hHigh : v < (m + 1) * 2 ^ e) : Int.log 2 v = m.log2 + e := by
  have hPow : (0 : ℚ) < 2 ^ e := by positivity
  have hSelf : (2 : ℚ) ^ m.log2 ≤ m := by exact_mod_cast Nat.log2_self_le hm.ne'
  have hSucc : (m : ℚ) + 1 ≤ 2 ^ (m.log2 + 1 : Int) := by exact_mod_cast Nat.lt_log2_self
  apply log_eq
  · rw [zpow_add₀ two_ne_zero, zpow_natCast]
    exact (mul_le_mul_of_nonneg_right hSelf hPow.le).trans hLow
  · rw [add_right_comm, zpow_add₀ two_ne_zero]
    exact hHigh.trans_le (mul_le_mul_of_nonneg_right hSucc hPow.le)

theorem log_mul_zpow {m : Nat} (hm : 0 < m) (e : Int) :
    Int.log 2 ((m : ℚ) * 2 ^ e) = m.log2 + e := by
  apply log_of_truncated hm le_rfl
  exact mul_lt_mul_of_pos_right (lt_add_one _) (zpow_pos two_pos e)

/-! ### The first shift -/

/-- The first shift of rounding takes a mantissa cut short to the grid. -/
theorem targetExponent_eq_grid {v : ℚ} {m : Nat} {e : Int} (hv : 0 < v)
    (hFloor : m = ⌊v / 2 ^ e⌋₊) (he : e ≤ grid v) :
    Format.binary64.targetExponent (totalExponent m e) = grid v := by
  show max ((m.log2 : Int) + 1 + e - 53) (-1074) = max (Int.log 2 v - 52) (-1074)
  have hPow : (0 : ℚ) < 2 ^ e := by positivity
  have hHigh : v < (m + 1) * 2 ^ e := by
    rw [← div_lt_iff₀ hPow, hFloor]
    exact Nat.lt_floor_add_one _
  rcases Nat.eq_zero_or_pos m with rfl | hm
  · -- nothing is left before the point, so the grid is the least one
    have hLog : Int.log 2 v < e :=
      (Int.lt_zpow_iff_log_lt one_lt_two hv).mp (by simpa using hHigh)
    have hZero : Nat.log2 0 = 0 := rfl
    unfold grid at he
    omega
  · have hLow : (m : ℚ) * 2 ^ e ≤ v := by
      rw [← le_div_iff₀ hPow, hFloor]
      exact Nat.floor_le (by positivity)
    have hLog := log_of_truncated hm hLow hHigh
    omega

/-- Rounding a mantissa of known accuracy is rounding what the two stand for. -/
theorem roundWithAccuracy_eq_rounded {v : ℚ} {m : Nat} {e : Int} {accuracy : Accuracy}
    (hv : 0 < v)
    (hExtended : ExtendedMantissa.ofMantissaAndAccuracy m accuracy = extended (v / 2 ^ e))
    (he : e ≤ grid v) :
    roundWithAccuracy Format.binary64 .positive m e accuracy = rounded v := by
  have hMantissa : m = ⌊v / 2 ^ e⌋₊ := by
    have hEq := congrArg ExtendedMantissa.mantissa hExtended
    rcases accuracy with _ | ⟨_ | _ | _⟩ <;> exact hEq
  have hShift : e + ((grid v - e).toNat : Int) = grid v := by omega
  have hValue : v / 2 ^ e / 2 ^ (grid v - e).toNat = v / 2 ^ grid v := by
    rw [div_div, ← zpow_natCast, ← zpow_add₀ two_ne_zero, hShift]
  show finish (ExtendedMantissa.ofMantissaAndAccuracy m accuracy >>>
      (Format.binary64.targetExponent (totalExponent m e) - e).toNat)
    (e + ((Format.binary64.targetExponent (totalExponent m e) - e).toNat : Int)) = _
  rw [targetExponent_eq_grid hv hMantissa he, hExtended, shiftRight_extended, hShift, hValue]
  rfl

/-! ## The range of doubles -/

/-- A mantissa of 53 bits or more is no coarser than the grid. -/
theorem le_grid {m : Nat} {e : Int} (h : 2 ^ 52 ≤ m) : e ≤ grid (m * 2 ^ e) := by
  have hPos : 0 < m := by omega
  have hLog : 52 ≤ m.log2 := (Nat.le_log2 hPos.ne').mpr h
  unfold grid
  rw [log_mul_zpow hPos]
  omega

/-- A double is on its grid. -/
theorem grid_of_isSignificand {m : Nat} {e : Int} (hPos : 0 < m)
    (h : Number.IsSignificand m e) : grid (m * 2 ^ e) = e := by
  have hLog := h.log2_lt hPos
  have hLeast := h.least
  unfold grid
  rw [log_mul_zpow hPos]
  rcases h.full with hFull | rfl
  · have hLog' : 52 ≤ m.log2 := (Nat.le_log2 hPos.ne').mpr hFull
    omega
  · omega

/-- A number of at most 53 bits has a mantissa of exactly 53 bits. -/
theorem exists_isSignificand {n : Nat} (hPos : 0 < n) (hLt : n < 2 ^ 53) :
    ∃ m e, Number.IsSignificand m e ∧ 2 ^ 52 ≤ m ∧ (m : ℚ) * 2 ^ e = n := by
  have hLog : n.log2 < 53 := (Nat.log2_lt hPos.ne').mpr hLt
  have hPow (k : Nat) : 2 ^ (n.log2 + k) * 2 ^ (52 - n.log2) = 2 ^ (52 + k) := by
    rw [← pow_add]
    congr 1
    omega
  have hFull : 2 ^ 52 ≤ n * 2 ^ (52 - n.log2) := by
    rw [← hPow 0]
    exact Nat.mul_le_mul_right _ (Nat.log2_self_le hPos.ne')
  have hBits : n * 2 ^ (52 - n.log2) < 2 ^ 53 := by
    rw [← hPow 1]
    exact Nat.mul_lt_mul_of_pos_right Nat.lt_log2_self (by positivity)
  have hCancel : ((52 - n.log2 : Nat) : Int) + (n.log2 - 52) = 0 := by omega
  refine ⟨n * 2 ^ (52 - n.log2), n.log2 - 52, ⟨hBits, by omega, by omega, .inl hFull⟩, hFull, ?_⟩
  push_cast
  rw [mul_assoc, ← zpow_natCast, ← zpow_add₀ two_ne_zero, hCancel, zpow_zero, mul_one]

/-- The places by which a rounded mantissa is shifted once more: one after a carry, else none. -/
def carry (m : Nat) (e : Int) : Nat := (max ((m.log2 : Int) + 1 + e - 53) (-1074) - e).toNat

theorem finish_eq (em : ExtendedMantissa) (e : Int) :
    finish em e = ofParts (em.roundedMantissa / 2 ^ carry em.roundedMantissa e)
      (e + carry em.roundedMantissa e) := by
  have hShifted : shiftToTargetExponent Format.binary64 em.roundedMantissa e .exact =
      (extended (em.roundedMantissa / 2 ^ carry em.roundedMantissa e),
        e + carry em.roundedMantissa e) := by
    rw [← shiftRight_extended, ← ofMantissaAndAccuracy_exact]
    rfl
  have hFloor : (extended ((em.roundedMantissa : ℚ) / 2 ^ carry em.roundedMantissa e)).mantissa =
      em.roundedMantissa / 2 ^ carry em.roundedMantissa e := by
    show ⌊_⌋₊ = _
    rw [← @Nat.floor_div_eq_div ℚ]
    congr 1
    push_cast
    rfl
  unfold finish
  dsimp only
  rw [hShifted, hFloor]

/-- Rounding keeps a double. -/
theorem rounded_of_isSignificand {m : Nat} {e : Int} (hPos : 0 < m)
    (h : Number.IsSignificand m e) : rounded (m * 2 ^ e) = .finite .positive m e hPos := by
  have hGrid := grid_of_isSignificand hPos h
  have hRounded : (extended ((m : ℚ) * 2 ^ e / 2 ^ e)).roundedMantissa = m := by
    rw [mul_div_cancel_right₀ _ (zpow_ne_zero e two_ne_zero), ← ofMantissaAndAccuracy_exact]
    rfl
  have hCarry : carry m e = 0 := by
    have hLog := h.log2_lt hPos
    have hLeast := h.least
    unfold carry
    omega
  unfold rounded
  rw [hGrid, finish_eq, hRounded, hCarry, pow_zero, Nat.div_one, ofParts_of_pos hPos,
    Nat.cast_zero, add_zero]

theorem mantissa_le_roundedMantissa (em : ExtendedMantissa) :
    em.mantissa ≤ em.roundedMantissa := by
  obtain ⟨m, _ | _, _ | _⟩ := em <;> simp [ExtendedMantissa.roundedMantissa,
    ExtendedMantissa.accuracy, Accuracy.roundToNearestEven]

/-- Beyond the range of doubles there is infinity. -/
theorem pack_rounded_of_le {v : ℚ} (h : 2 ^ (1024 : Int) ≤ v) :
    Float.ofModel (pack (rounded v)) = Float.ofModel (pack (.infinity .positive)) := by
  have hPos : 0 < v := (zpow_pos two_pos _).trans_le h
  have hLog : 1024 ≤ Int.log 2 v :=
    (Int.zpow_le_iff_le_log one_lt_two hPos).mp (by rwa [Nat.cast_ofNat])
  have hGrid : grid v = Int.log 2 v - 52 := by
    unfold grid
    omega
  have hOne : (1 : ℚ) ≤ v / 2 ^ grid v := by
    rw [one_le_div (zpow_pos two_pos _)]
    refine le_trans ?_ (Int.zpow_log_le_self one_lt_two hPos)
    exact zpow_le_zpow_right₀ (by norm_num) (by omega)
  generalize hRounded : (extended (v / 2 ^ grid v)).roundedMantissa = m
  have hM : 0 < m := by
    rw [← hRounded]
    exact (Nat.floor_pos.mpr hOne).trans_le (mantissa_le_roundedMantissa (extended _))
  have hCarry : carry m (grid v) ≤ m.log2 := by
    unfold carry
    omega
  have hKept : 0 < m / 2 ^ carry m (grid v) :=
    Nat.div_pos ((Nat.pow_le_pow_right two_pos hCarry).trans (Nat.log2_self_le hM.ne'))
      (by positivity)
  apply Number.eq_of_toBits
  show UnpackedFloat.pack Format.binary64 (rounded v) =
    UnpackedFloat.pack Format.binary64 (.infinity .positive)
  unfold rounded
  rw [finish_eq, hRounded, ofParts_of_pos hKept, Number.pack_high _ _ (by omega)]
  rfl

/-- Below half of the least double there is zero. -/
theorem rounded_of_lt {v : ℚ} (hv : 0 < v) (h : v < 2 ^ (-1075 : Int)) :
    rounded v = .zero .positive := by
  have hLog : Int.log 2 v < -1075 :=
    (Int.lt_zpow_iff_log_lt one_lt_two hv).mp (by exact_mod_cast h)
  have hGrid : grid v = -1074 := by
    unfold grid
    omega
  have hHalf : 2 * (v / 2 ^ (-1074 : Int)) < 1 := by
    have hPow : (2 : ℚ) ^ (-1074 : Int) = 2 * 2 ^ (-1075 : Int) := by
      rw [← zpow_one_add₀ two_ne_zero]
      rfl
    rw [hPow, ← mul_div_assoc, mul_div_mul_left _ _ two_ne_zero]
    exact (div_lt_one (zpow_pos two_pos _)).mpr h
  have hRounded : (extended (v / 2 ^ grid v)).roundedMantissa = 0 := by
    have hNonneg : 0 ≤ v / 2 ^ (-1074 : Int) := div_nonneg hv.le (zpow_nonneg zero_le_two _)
    rw [hGrid]
    unfold extended
    rw [Nat.floor_eq_zero.mpr hHalf, Nat.floor_eq_zero.mpr (by linarith)]
    generalize (((0 : Nat) : ℚ) != _) = sticky
    cases sticky <;> rfl
  unfold rounded
  rw [finish_eq, hRounded, Nat.zero_div]
  rfl

/-! ## Moving bits -/

section Bits

variable (m : Nat) (e target : Int)

/-- Bits that are added behind a mantissa keep its value. -/
theorem decreaseExponent_value :
    ((decreaseExponent m e target).1 : ℚ) * 2 ^ (decreaseExponent m e target).2 = m * 2 ^ e := by
  have hShift : ((e - target).toNat : Int) + (e - ((e - target).toNat : Int)) = e := by omega
  show ((m <<< (e - target).toNat : Nat) : ℚ) * 2 ^ (e - ((e - target).toNat : Int)) = _
  rw [Nat.shiftLeft_eq]
  push_cast
  rw [mul_assoc, ← zpow_natCast, ← zpow_add₀ two_ne_zero, hShift]

theorem decreaseExponent_snd_le : (decreaseExponent m e target).2 ≤ target := by
  show e - ((e - target).toNat : Int) ≤ target
  omega

theorem decreaseExponent_snd (h : target ≤ e) : (decreaseExponent m e target).2 = target := by
  show e - ((e - target).toNat : Int) = target
  omega

end Bits

/-! ## Operations -/

section Operations

variable {m n : Nat} {e f : Int} (hm : 0 < m) (hn : 0 < n)

theorem mul_eq_rounded (h : 2 ^ 52 ≤ m * n) :
    UnpackedFloat.mul Format.binary64 (.finite .positive m e hm) (.finite .positive n f hn) =
      rounded (m * 2 ^ e * (n * 2 ^ f)) := by
  have hValue : (m : ℚ) * 2 ^ e * (n * 2 ^ f) = (m * n : Nat) * 2 ^ (e + f) := by
    rw [zpow_add₀ two_ne_zero]
    push_cast
    ring
  have hPos : (0 : ℚ) < (m * n : Nat) * 2 ^ (e + f) :=
    mul_pos (by exact_mod_cast Nat.mul_pos hm hn) (zpow_pos two_pos _)
  rw [hValue]
  refine roundWithAccuracy_eq_rounded hPos ?_ (le_grid h)
  rw [ofMantissaAndAccuracy_exact, mul_div_cancel_right₀ _ (zpow_ne_zero _ two_ne_zero)]

theorem div_eq_rounded :
    UnpackedFloat.div Format.binary64 (.finite .positive m e hm) (.finite .positive n f hn) =
      rounded (m * 2 ^ e / (n * 2 ^ f)) := by
  have hV : (0 : ℚ) < m * 2 ^ e / (n * 2 ^ f) := by positivity
  generalize hTarget : min (e - f) (Format.binary64.targetExponent
    (totalExponent m e - totalExponent n f)) = t
  have hLe : t ≤ e - f := by omega
  have hShift : ((e - f - t).toNat : Int) = e - f - t := by omega
  show roundWithAccuracy Format.binary64 .positive
    (m <<< (e - f - min (e - f) (Format.binary64.targetExponent
      (totalExponent m e - totalExponent n f))).toNat / n) _ (accuracyOfFraction _ _) = _
  rw [hTarget]
  apply roundWithAccuracy_eq_rounded hV
  · rw [ofMantissaAndAccuracy_div _ hn, Nat.shiftLeft_eq]
    congr 1
    push_cast
    rw [← zpow_natCast, hShift, zpow_sub₀ two_ne_zero, zpow_sub₀ two_ne_zero]
    field_simp
  · have hM : (2 : ℚ) ^ (m.log2 : Int) ≤ m := by exact_mod_cast Nat.log2_self_le hm.ne'
    have hN : (n : ℚ) ≤ 2 ^ (n.log2 + 1 : Int) := by exact_mod_cast Nat.lt_log2_self.le
    have hLog : (m.log2 : Int) + e - (n.log2 + 1 + f) ≤
        Int.log 2 (m * 2 ^ e / (n * 2 ^ f) : ℚ) := by
      apply (Int.zpow_le_iff_le_log one_lt_two hV).mp
      rw [Nat.cast_ofNat, zpow_sub₀ two_ne_zero, zpow_add₀ two_ne_zero, zpow_add₀ two_ne_zero _ f]
      gcongr
    have hBound : t ≤ max ((totalExponent m e - totalExponent n f) - 53) (-1074) :=
      hTarget ▸ min_le_right _ _
    unfold totalExponent at hBound
    unfold grid
    omega

variable {hm hn} in
/-- A product of doubles is the product of their values, rounded. -/
theorem float_mul_eq {x y : Float} (hX : x.toModel.unpack = .finite .positive m e hm)
    (hY : y.toModel.unpack = .finite .positive n f hn) (h : 2 ^ 52 ≤ m * n) :
    x * y = Float.ofModel (pack (rounded (m * 2 ^ e * (n * 2 ^ f)))) := by
  rw [← mul_eq_rounded hm hn h, ← hX, ← hY]
  rfl

variable {hm hn} in
/-- A quotient of doubles is the quotient of their values, rounded. -/
theorem float_div_eq {x y : Float} (hX : x.toModel.unpack = .finite .positive m e hm)
    (hY : y.toModel.unpack = .finite .positive n f hn) :
    x / y = Float.ofModel (pack (rounded (m * 2 ^ e / (n * 2 ^ f)))) := by
  rw [← div_eq_rounded hm hn, ← hX, ← hY]
  rfl

variable {hn} in
theorem zero_mul_eq {x y : Float} (hX : x.toModel.unpack = .zero .positive)
    (hY : y.toModel.unpack = .finite .positive n f hn) : x * y = 0 := by
  show Float.ofModel (pack (UnpackedFloat.mul Format.binary64 _ _)) = _
  rw [hX, hY]
  rfl

variable {hn} in
theorem zero_div_eq {x y : Float} (hX : x.toModel.unpack = .zero .positive)
    (hY : y.toModel.unpack = .finite .positive n f hn) : x / y = 0 := by
  show Float.ofModel (pack (UnpackedFloat.div Format.binary64 _ _)) = _
  rw [hX, hY]
  rfl

include hm in
/-- Rounding is rounding the value, wherever the bits of the mantissa are. -/
theorem round_eq_rounded :
    UnpackedFloat.round Format.binary64 .positive m e = rounded (m * 2 ^ e) := by
  have hV : (0 : ℚ) < m * 2 ^ e := mul_pos (by exact_mod_cast hm) (zpow_pos two_pos e)
  have hGrid : Format.binary64.targetExponent (totalExponent m e) = grid (m * 2 ^ e) := by
    have hLog := log_mul_zpow hm e
    show max ((m.log2 : Int) + 1 + e - 53) (-1074) = max (Int.log 2 ((m : ℚ) * 2 ^ e) - 52) (-1074)
    omega
  show roundWithAccuracy Format.binary64 .positive
    (decreaseExponent m e (Format.binary64.targetExponent (totalExponent m e))).1
    (decreaseExponent m e (Format.binary64.targetExponent (totalExponent m e))).2 .exact = _
  rw [hGrid]
  apply roundWithAccuracy_eq_rounded hV
  · generalize grid ((m : ℚ) * 2 ^ e) = target
    rw [ofMantissaAndAccuracy_exact, ← decreaseExponent_value m e target,
      mul_div_cancel_right₀ _ (zpow_ne_zero _ two_ne_zero)]
  · exact decreaseExponent_snd_le m e _

theorem ofNat_eq_rounded (m : Nat) (hm : 0 < m) :
    UnpackedFloat.ofNat Format.binary64 m = rounded m := by
  have hCompare : compare (m : Int) 0 = .gt := compare_gt_iff_gt.mpr (by omega)
  have hRounded := round_eq_rounded (e := 0) hm
  rw [zpow_zero, mul_one] at hRounded
  unfold UnpackedFloat.ofNat UnpackedFloat.ofInt UnpackedFloat.normalize
  rw [hCompare]
  dsimp only
  rw [Int.toNat_natCast, hRounded]

end Operations

end NoteSheet.Rounding
