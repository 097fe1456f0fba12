import NoteSheet.Proofs.Rounding

/-!
# The values of decimals

A decimal stands for a rational number, and reading it as a double rounds that number: the
short way for small decimals, the table of powers of ten behind it and the shortcuts for huge
exponents all come to the same (`toFloat_eq_rounded`). So two decimals that stand for the same
number read as the same double, however many zeros or places they are written with, and the
shortest decimal of a double, which was picked because it reads back, does so.

Main statements: `toFloat_congr` (reading depends on the number alone), `toFloat_shortest`
(shortest decimals read back).
-/

namespace NoteSheet.Decimal

open Float.Model UnpackedFloat Rounding

/-- The rational number that a decimal stands for. -/
def value (d : Decimal) : ℚ := d.mantissa * 10 ^ d.exponent

theorem value_pos {d : Decimal} (h : 0 < d.mantissa) : 0 < d.value :=
  mul_pos (by exact_mod_cast h) (zpow_pos (by norm_num) _)

theorem value_eq_mul {d : Decimal} (h : 0 ≤ d.exponent) :
    d.value = d.mantissa * 10 ^ d.exponent.natAbs := by
  unfold value
  rw [← zpow_natCast, Int.natAbs_of_nonneg h]

theorem value_eq_div {d : Decimal} (h : d.exponent < 0) :
    d.value = d.mantissa / 10 ^ d.exponent.natAbs := by
  unfold value
  rw [← zpow_natCast, Int.ofNat_natAbs_of_nonpos h.le, zpow_neg, div_inv_eq_mul]

/-! ## Small decimals -/

/-- Whether an unpacked double is this power of ten, with a mantissa of 53 bits. -/
def isPowerOfTen (k : Nat) : UnpackedFloat → Bool
  | .finite .positive m e _ =>
      2 ^ 52 ≤ m && -52 ≤ e && m * 2 ^ (e + 52).toNat == 10 ^ k * 2 ^ 52
  | _ => false

theorem isPowerOfTen_table : ∀ k, (h : k < Float.exactlyRepresentablePowersOfTen.size) →
    isPowerOfTen k Float.exactlyRepresentablePowersOfTen[k].toModel.unpack = true := by
  decide +kernel

theorem of_isPowerOfTen {k : Nat} {f : UnpackedFloat} (h : isPowerOfTen k f = true) :
    ∃ m e hPos, f = .finite .positive m e hPos ∧ 2 ^ 52 ≤ m ∧ (m : ℚ) * 2 ^ e = 10 ^ k := by
  rcases f with _ | _ | _ | ⟨_ | _, m, e, hPos⟩ <;> try exact absurd h Bool.false_ne_true
  unfold isPowerOfTen at h
  simp only [Bool.and_eq_true, decide_eq_true_eq, beq_iff_eq] at h
  obtain ⟨⟨hFull, hLeast⟩, hEq⟩ := h
  refine ⟨m, e, hPos, rfl, hFull, ?_⟩
  have hCast : (m : ℚ) * 2 ^ (e + 52).toNat = 10 ^ k * 2 ^ 52 := by exact_mod_cast hEq
  rw [← zpow_natCast, Int.toNat_of_nonneg (by omega), zpow_add₀ two_ne_zero, ← mul_assoc] at hCast
  exact mul_right_cancel₀ (by positivity) hCast

/-- A number of at most 53 bits is a double. -/
theorem unpack_toFloat {n : Nat} (hPos : 0 < n) (hLt : n < 2 ^ 53) :
    ∃ m e h, n.toUInt64.toFloat.toModel.unpack = .finite .positive m e h ∧ 2 ^ 52 ≤ m ∧
      (m : ℚ) * 2 ^ e = n := by
  obtain ⟨m, e, hSignificand, hFull, hValue⟩ := exists_isSignificand hPos hLt
  have hM : 0 < m := by omega
  have hToNat : n.toUInt64.toNat = n := Nat.mod_eq_of_lt (by omega)
  refine ⟨m, e, hM, ?_, hFull, hValue⟩
  show (pack (UnpackedFloat.ofNat Format.binary64 n.toUInt64.toNat)).unpack = _
  rw [hToNat, ofNat_eq_rounded n hPos, ← hValue, rounded_of_isSignificand hM hSignificand]
  exact Number.unpack_pack hSignificand .positive hM

/-- A decimal of few digits and places is read by one operation on doubles. -/
theorem toFloat_eq_rounded_of_lt {d : Decimal} (hPos : 0 < d.mantissa)
    (hMantissa : d.mantissa < 2 ^ 53) (hExponent : d.exponent.natAbs ≤ 22) :
    d.toFloat = Float.ofModel (pack (rounded d.value)) := by
  obtain ⟨m, e, hm, hM, hFull, hValue⟩ := unpack_toFloat hPos hMantissa
  obtain ⟨n, f, hn, hN, hFull', hPower⟩ :=
    of_isPowerOfTen (isPowerOfTen_table d.exponent.natAbs (Nat.lt_succ_of_le hExponent))
  unfold toFloat Float.ofScientific
  rw [dif_pos ⟨hMantissa, hExponent⟩]
  by_cases hNeg : d.exponent < 0
  · rw [decide_eq_true hNeg]
    refine (float_div_eq hM hN).trans ?_
    rw [hValue, hPower, value_eq_div hNeg]
  · rw [decide_eq_false hNeg]
    refine (float_mul_eq hM hN (hFull.trans (Nat.le_mul_of_pos_right m hn))).trans ?_
    rw [hValue, hPower, value_eq_mul (by omega)]

/-! ## All decimals -/

theorem le_value_of_high {d : Decimal} (hPos : 0 < d.mantissa) (h : d.exponent > 2 ^ 11) :
    2 ^ (1024 : Int) ≤ d.value := by
  have hOne : (1 : ℚ) ≤ d.mantissa := by exact_mod_cast hPos
  calc (2 : ℚ) ^ (1024 : Int)
      ≤ 2 ^ d.exponent := zpow_le_zpow_right₀ one_le_two (by omega)
    _ ≤ 10 ^ d.exponent := zpow_le_zpow_left₀ (by omega) zero_le_two (by norm_num)
    _ ≤ d.value := le_mul_of_one_le_left (zpow_nonneg (by norm_num) _) hOne

theorem value_lt_of_low {d : Decimal}
    (h : d.exponent < -(2 ^ 11 + d.mantissa.log2)) : d.value < 2 ^ (-1075 : Int) := by
  have hBits : (d.mantissa : ℚ) < 2 ^ (d.mantissa.log2 + 1 : Int) := by
    exact_mod_cast Nat.lt_log2_self
  have hPower : (10 : ℚ) ^ d.exponent ≤ 2 ^ d.exponent := by
    have hAbs : d.exponent = -(d.exponent.natAbs : Int) := by omega
    rw [hAbs, zpow_neg, zpow_neg, zpow_natCast, zpow_natCast]
    gcongr
    norm_num
  calc d.value
      < 2 ^ (d.mantissa.log2 + 1 : Int) * 10 ^ d.exponent :=
        mul_lt_mul_of_pos_right hBits (zpow_pos (by norm_num) _)
    _ ≤ 2 ^ (d.mantissa.log2 + 1 : Int) * 2 ^ d.exponent := by gcongr
    _ = 2 ^ (d.mantissa.log2 + 1 + d.exponent) := (zpow_add₀ two_ne_zero _ _).symm
    _ ≤ 2 ^ (-1075 : Int) := zpow_le_zpow_right₀ one_le_two (by omega)

theorem scaled_eq_rounded {d : Decimal} (hPos : 0 < d.mantissa) (hExponent : 0 ≤ d.exponent)
    (hShifted : 0 < d.mantissa <<< Format.binary64.mantissaBits)
    (hPower : 0 < 10 ^ d.exponent.toNat) :
    UnpackedFloat.mul Format.binary64
        (.finite .positive (d.mantissa <<< Format.binary64.mantissaBits)
          (-Format.binary64.mantissaBits) hShifted)
        (.finite .positive (10 ^ d.exponent.toNat) 0 hPower) = rounded d.value := by
  have hFull : 2 ^ 52 ≤ d.mantissa <<< Format.binary64.mantissaBits * 10 ^ d.exponent.toNat := by
    show 2 ^ 52 ≤ d.mantissa <<< 53 * _
    rw [Nat.shiftLeft_eq]
    refine le_trans ?_ (Nat.le_mul_of_pos_right _ hPower)
    omega
  have hAbs : d.exponent.toNat = d.exponent.natAbs := by omega
  have hShift : ((d.mantissa <<< Format.binary64.mantissaBits : Nat) : ℚ) *
      2 ^ (-(Format.binary64.mantissaBits : Int)) = d.mantissa := by
    rw [Nat.shiftLeft_eq, zpow_neg, zpow_natCast]
    push_cast
    exact mul_inv_cancel_right₀ (by positivity) _
  rw [mul_eq_rounded _ _ hFull, value_eq_mul hExponent, hShift, hAbs, zpow_zero, mul_one]
  push_cast
  rfl

theorem unscaled_eq_rounded {d : Decimal} (hPos : 0 < d.mantissa) (hExponent : d.exponent < 0)
    (hPower : 0 < 10 ^ (-d.exponent).toNat) :
    UnpackedFloat.div Format.binary64 (.finite .positive d.mantissa 0 hPos)
        (.finite .positive (10 ^ (-d.exponent).toNat) 0 hPower) = rounded d.value := by
  have hAbs : (-d.exponent).toNat = d.exponent.natAbs := by omega
  rw [div_eq_rounded, value_eq_div hExponent, hAbs, zpow_zero, mul_one, mul_one]
  push_cast
  rfl

/-- Reading a decimal rounds what it stands for, also where huge exponents are cut off. -/
theorem ofScientific_eq_rounded {d : Decimal} (hPos : 0 < d.mantissa) :
    Float.ofModel (pack (UnpackedFloat.ofScientific Format.binary64 d.mantissa d.exponent)) =
      Float.ofModel (pack (rounded d.value)) := by
  unfold UnpackedFloat.ofScientific
  rw [dif_neg hPos.ne']
  by_cases hHigh : d.exponent > 2 ^ 11
  · rw [if_pos hHigh]
    exact (pack_rounded_of_le (le_value_of_high hPos hHigh)).symm
  · rw [if_neg hHigh]
    by_cases hLow : d.exponent < -(2 ^ 11 + d.mantissa.log2)
    · rw [if_pos hLow, rounded_of_lt (value_pos hPos) (value_lt_of_low hLow)]
    · rw [if_neg hLow]
      by_cases hNonneg : 0 ≤ d.exponent
      · rw [if_pos hNonneg, scaled_eq_rounded hPos hNonneg]
      · rw [if_neg hNonneg, unscaled_eq_rounded hPos (by omega)]

/-- Reading a decimal rounds what it stands for. -/
theorem toFloat_eq_rounded {d : Decimal} (hPos : 0 < d.mantissa) :
    d.toFloat = Float.ofModel (pack (rounded d.value)) := by
  by_cases hSmall : d.mantissa < 2 ^ 53 ∧ d.exponent.natAbs ≤ 22
  · exact toFloat_eq_rounded_of_lt hPos hSmall.1 hSmall.2
  · have hExponent : (if decide (d.exponent < 0) = true then Int.negOfNat d.exponent.natAbs
        else Int.ofNat d.exponent.natAbs) = d.exponent := by
      by_cases hNeg : d.exponent < 0
      · rw [if_pos (decide_eq_true hNeg), Int.negOfNat_eq, Int.ofNat_eq_natCast]
        omega
      · rw [if_neg (by simpa using hNeg), Int.ofNat_eq_natCast]
        omega
    unfold toFloat Float.ofScientific
    rw [dif_neg hSmall]
    dsimp only
    rw [hExponent]
    unfold Float.Model.ofScientific
    rw [ofScientific_eq_rounded hPos]

theorem value_eq_zero_iff {d : Decimal} : d.value = 0 ↔ d.mantissa = 0 := by
  unfold value
  simp [zpow_ne_zero]

theorem toFloat_of_mantissa_eq_zero {d : Decimal} (h : d.mantissa = 0) : d.toFloat = 0 := by
  unfold toFloat Float.ofScientific
  by_cases hSmall : d.mantissa < 2 ^ 53 ∧ d.exponent.natAbs ≤ 22
  · obtain ⟨n, f, hn, hN, -, -⟩ :=
      of_isPowerOfTen (isPowerOfTen_table d.exponent.natAbs (Nat.lt_succ_of_le hSmall.2))
    have hZero : d.mantissa.toUInt64.toFloat.toModel.unpack = .zero .positive := by
      rw [h]
      rfl
    rw [dif_pos hSmall]
    cases decide (d.exponent < 0)
    · exact zero_mul_eq hZero hN
    · exact zero_div_eq hZero hN
  · rw [dif_neg hSmall, h]
    rfl

/-- **Values decide**: decimals that stand for the same number read as the same double. -/
theorem toFloat_congr {c d : Decimal} (h : c.value = d.value) : c.toFloat = d.toFloat := by
  have hZero : c.mantissa = 0 ↔ d.mantissa = 0 := by
    rw [← value_eq_zero_iff, ← value_eq_zero_iff, h]
  rcases Nat.eq_zero_or_pos c.mantissa with hC | hC
  · rw [toFloat_of_mantissa_eq_zero hC, toFloat_of_mantissa_eq_zero (hZero.mp hC)]
  · have hD : 0 < d.mantissa := by omega
    rw [toFloat_eq_rounded hC, toFloat_eq_rounded hD, h]

/-- A decimal always reads as a number. -/
theorem toFloat_ne_nan (d : Decimal) : d.toFloat ≠ Number.nan := by
  rcases Nat.eq_zero_or_pos d.mantissa with hZero | hPos
  · rw [toFloat_of_mantissa_eq_zero hZero]
    decide
  · rw [toFloat_eq_rounded hPos, ne_eq, Number.ofModel_pack_eq_nan_iff]
    exact ofParts_ne_notANumber _ _
/-! ## Shortest decimals -/

section Finite

variable {x : Float} {m : Nat} {e : Int} {h : 0 < m}

/-- The exact decimal of a positive finite double stands for its mantissa, scaled. -/
theorem value_exact (hX : x.toModel.unpack = .finite .positive m e h) :
    (exact x).value = m * 2 ^ e := by
  unfold exact
  rw [Number.binaryParts_eq hX]
  cases e with
  | ofNat q => simp [value]
  | negSucc q =>
      have hTen : (10 : ℚ) ^ (q + 1) = 5 ^ (q + 1) * 2 ^ (q + 1) := by rw [← mul_pow]; norm_num
      show ((m * 5 ^ (q + 1) : Nat) : ℚ) * 10 ^ Int.negSucc q = m * 2 ^ Int.negSucc q
      rw [zpow_negSucc, zpow_negSucc, hTen]
      push_cast
      field_simp

theorem mantissa_pos_of_toFloat {d : Decimal} (hX : x.toModel.unpack = .finite .positive m e h)
    (hD : d.toFloat = x) : 0 < d.mantissa := by
  refine Nat.pos_of_ne_zero fun hZero => ?_
  rw [toFloat_of_mantissa_eq_zero hZero] at hD
  rw [← hD] at hX
  cases hX

theorem toFloat_exact (hX : x.toModel.unpack = .finite .positive m e h) :
    (exact x).toFloat = x := by
  have hValue := value_exact hX
  have hPos : 0 < (exact x).mantissa := by
    refine Nat.pos_of_ne_zero fun hZero => ?_
    rw [← value_eq_zero_iff, hValue] at hZero
    have hNe : (m : ℚ) * 2 ^ e ≠ 0 := by positivity
    exact hNe hZero
  rw [toFloat_eq_rounded hPos, hValue,
    rounded_of_isSignificand h (Number.isSignificand hX), ← hX, Number.ofModel_pack_unpack]

/-- A candidate reads back as the double it was cut for. -/
theorem toFloat_of_cut? (hX : x.toModel.unpack = .finite .positive m e h) {c d : Decimal}
    {drop : Nat} (hCut : cut? x d drop = some c) : c.toFloat = x := by
  apply Number.eq_of_beq_finite hX
  unfold cut? at hCut
  dsimp only at hCut
  split at hCut
  case h_1 hBelow hAbove =>
    rcases ite_eq_iff.mp hCut with ⟨-, hEq⟩ | ⟨-, hEq⟩ <;> cases hEq
    · exact hBelow
    · exact hAbove
  case h_2 hBelow hAbove =>
    cases hCut
    exact hBelow
  case h_3 hBelow hAbove =>
    cases hCut
    exact hAbove
  case h_4 => cases hCut

/-- **Shortest decimals read back**: the shortest decimal of a positive finite double reads as
that double. -/
theorem toFloat_shortest (hX : x.toModel.unpack = .finite .positive m e h) :
    (shortest x).toFloat = x := by
  unfold shortest
  dsimp only
  cases hFound : (List.range (digits (exact x).mantissa).length).findSome? fun k =>
      cut? x (exact x) ((digits (exact x).mantissa).length - 1 - k) with
  | none => exact toFloat_exact hX
  | some c =>
      obtain ⟨k, -, hCut⟩ := List.exists_of_findSome?_eq_some hFound
      exact toFloat_of_cut? hX hCut

end Finite

end NoteSheet.Decimal
