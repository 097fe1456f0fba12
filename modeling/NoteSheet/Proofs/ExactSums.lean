import NoteSheet.Proofs.DecimalValues

/-!
# Sums of doubles that are exact

A finite double has a rational number as its value. Finite doubles compare as their values do,
and the sum or difference of two has the sum or difference of the values where that is the value
of a double again (`HasDouble`): nothing is left to be rounded. This is so for all integers of up
to 53 bits.

A double is compared by sign, exponent and mantissa. That this is the order of values rests on
the mantissa being full but at the least exponent (`Stands.lt`).

Main statements: `le_iff_value`, `value?_add`, `value?_sub`, `hasDouble_intCast`.
-/

namespace NoteSheet.Number

open Float.Model UnpackedFloat Rounding

/-! ## Values -/

/-- The number that a sign, a mantissa and an exponent stand for. -/
def partsValue (sign : Sign) (mantissa : Nat) (exponent : Int) : ℚ :=
  sign.apply mantissa * 2 ^ exponent

theorem partsValue_positive (m : Nat) (e : Int) : partsValue .positive m e = m * 2 ^ e := rfl

theorem partsValue_negative (m : Nat) (e : Int) : partsValue .negative m e = -(m * 2 ^ e) := by
  show ((-(m : Int) : Int) : ℚ) * 2 ^ e = _
  rw [Int.cast_neg, Int.cast_natCast, neg_mul]

/-- The sign is of no account for where the bits of a mantissa are. -/
theorem partsValue_congr {m n : Nat} {e f : Int} (sign : Sign)
    (h : (m : ℚ) * 2 ^ e = n * 2 ^ f) : partsValue sign m e = partsValue sign n f := by
  cases sign with
  | positive => rwa [partsValue_positive, partsValue_positive]
  | negative => rw [partsValue_negative, partsValue_negative, h]

theorem partsValue_neg (sign : Sign) (m : Nat) (e : Int) :
    partsValue (-sign) m e = -partsValue sign m e := by
  cases sign with
  | positive => exact partsValue_negative m e
  | negative => rw [partsValue_negative, neg_neg]; rfl

/-- The value of an unpacked double, if it is finite. -/
def unpackedValue? : UnpackedFloat → Option ℚ
  | .notANumber => none
  | .infinity _ => none
  | .zero _ => some 0
  | .finite sign mantissa exponent _ => some (partsValue sign mantissa exponent)

/-- The value of a double, if it is finite. -/
def value? (x : Float) : Option ℚ := unpackedValue? x.toModel.unpack

theorem value?_of_finite {x : Float} {sign : Sign} {m : Nat} {e : Int} {h : 0 < m}
    (hX : x.toModel.unpack = .finite sign m e h) : value? x = some (partsValue sign m e) :=
  congrArg unpackedValue? hX

theorem value?_of_zero {x : Float} {sign : Sign} (hX : x.toModel.unpack = .zero sign) :
    value? x = some 0 :=
  congrArg unpackedValue? hX

/-- What has a value is a zero, or finite with the value of its parts. -/
theorem zero_or_finite_of_value? {x : Float} {a : ℚ} (h : value? x = some a) :
    (∃ sign, x.toModel.unpack = .zero sign ∧ a = 0) ∨
      ∃ sign m e hPos, x.toModel.unpack = .finite sign m e hPos ∧ a = partsValue sign m e := by
  unfold value? at h
  cases hX : x.toModel.unpack with
  | notANumber =>
      rw [hX] at h
      cases h
  | infinity sign =>
      rw [hX] at h
      cases h
  | zero sign =>
      rw [hX] at h
      exact .inl ⟨sign, rfl, (Option.some.inj h).symm⟩
  | finite sign m e hPos =>
      rw [hX] at h
      exact .inr ⟨sign, m, e, hPos, rfl, (Option.some.inj h).symm⟩

/-! ## The order of values -/

/-- The standing of a rational number that is the value of a double. -/
inductive Stands : ℚ → Int ×ₗ Int ×ₗ Int → Prop
  | zero : Stands 0 (toLex (0, toLex (0, 0)))
  | positive {m : Nat} {e : Int} (kept : IsSignificand m e) (pos : 0 < m) :
      Stands (m * 2 ^ e) (toLex (1, toLex (e, m)))
  | negative {m : Nat} {e : Int} (kept : IsSignificand m e) (pos : 0 < m) :
      Stands (-(m * 2 ^ e)) (toLex (-1, toLex (-e, -m)))

/-- A finite double has the standing of its value. -/
theorem exists_stands {x : Float} {a : ℚ} (h : value? x = some a) :
    ∃ s, standing? x.toModel.unpack = some s ∧ Stands a s := by
  rcases zero_or_finite_of_value? h with ⟨sign, hX, rfl⟩ | ⟨sign, m, e, hPos, hX, rfl⟩
  · rw [hX]
    exact ⟨_, rfl, .zero⟩
  · have hKept := isSignificand hX
    rw [hX]
    cases sign with
    | positive => exact ⟨_, rfl, .positive hKept hPos⟩
    | negative =>
        rw [partsValue_negative]
        exact ⟨_, rfl, .negative hKept hPos⟩

/-- A larger exponent, or the same and a larger mantissa, makes a larger number. -/
theorem IsSignificand.lt_of_toLex_lt {m n : Nat} {e f : Int} (hM : IsSignificand m e)
    (hN : IsSignificand n f) (h : toLex (e, (m : Int)) < toLex (f, (n : Int))) :
    (m : ℚ) * 2 ^ e < n * 2 ^ f := by
  rcases Prod.Lex.toLex_lt_toLex.mp h with hExponent | ⟨hExponent, hMantissa⟩
  · have hExponent : e < f := hExponent
    have hLeast := hM.least
    have hFull : 2 ^ 52 ≤ n := hN.full.resolve_right (by omega)
    have hM' : (m : ℚ) < 2 ^ 53 := by exact_mod_cast hM.lt
    have hN' : (2 ^ 52 : ℚ) ≤ n := by exact_mod_cast hFull
    calc (m : ℚ) * 2 ^ e
        < 2 ^ 53 * 2 ^ e := mul_lt_mul_of_pos_right hM' (zpow_pos two_pos e)
      _ = 2 ^ 52 * 2 ^ (e + 1) := by rw [zpow_add_one₀ two_ne_zero]; ring
      _ ≤ 2 ^ 52 * 2 ^ f := mul_le_mul_of_nonneg_left
          (zpow_le_zpow_right₀ one_le_two (by omega)) (by positivity)
      _ ≤ n * 2 ^ f := mul_le_mul_of_nonneg_right hN' (zpow_pos two_pos f).le
  · obtain rfl : e = f := hExponent
    have hMantissa : (m : Int) < n := hMantissa
    exact mul_lt_mul_of_pos_right (by exact_mod_cast hMantissa) (zpow_pos two_pos e)

namespace Stands

variable {a b : ℚ} {s t : Int ×ₗ Int ×ₗ Int}

/-- What stands lower is less. -/
theorem lt (hA : Stands a s) (hB : Stands b t) (h : s < t) : a < b := by
  have hUnit {m : Nat} (e : Int) (hPos : 0 < m) : (0 : ℚ) < m * 2 ^ e :=
    mul_pos (by exact_mod_cast hPos) (zpow_pos two_pos e)
  cases hA with
  | zero =>
      cases hB with
      | zero => exact absurd h (lt_irrefl _)
      | @positive n f kept pos => exact hUnit f pos
      | @negative n f kept pos => simp [Prod.Lex.toLex_lt_toLex] at h
  | @positive m e kept pos =>
      cases hB with
      | zero => simp [Prod.Lex.toLex_lt_toLex] at h
      | @positive n f kept' pos' =>
          exact kept.lt_of_toLex_lt kept' (by simpa [Prod.Lex.toLex_lt_toLex] using h)
      | @negative n f kept' pos' => simp [Prod.Lex.toLex_lt_toLex] at h
  | @negative m e kept pos =>
      cases hB with
      | zero => exact neg_lt_zero.mpr (hUnit e pos)
      | @positive n f kept' pos' => exact (neg_lt_zero.mpr (hUnit e pos)).trans (hUnit f pos')
      | @negative n f kept' pos' =>
          refine neg_lt_neg (kept'.lt_of_toLex_lt kept ?_)
          simpa [Prod.Lex.toLex_lt_toLex, eq_comm] using h

/-- What stands somewhere is put together from its standing. -/
theorem eq_of_standing (h : Stands a s) :
    a = (ofLex (ofLex s).2).2 * 2 ^ ((ofLex s).1 * (ofLex (ofLex s).2).1) := by
  cases h <;> simp

theorem unique (hA : Stands a s) (hB : Stands b s) : a = b :=
  hA.eq_of_standing.trans hB.eq_of_standing.symm

/-- The order of standings is that of what stands there. -/
theorem le_iff (hA : Stands a s) (hB : Stands b t) : s ≤ t ↔ a ≤ b := by
  constructor
  · intro hLe
    rcases hLe.lt_or_eq with hLt | rfl
    · exact (hA.lt hB hLt).le
    · exact (hA.unique hB).le
  · intro hLe
    by_contra hLt
    exact hLe.not_gt (hB.lt hA (not_le.mp hLt))

end Stands

/-- **Finite doubles compare as their values.** -/
theorem le_iff_value {x y : Float} {a b : ℚ} (hX : value? x = some a) (hY : value? y = some b) :
    x ≤ y ↔ a ≤ b := by
  obtain ⟨s, hS, hA⟩ := exists_stands hX
  obtain ⟨t, hT, hB⟩ := exists_stands hY
  rw [Number.le_iff, ← hA.le_iff hB, hS, hT]
  constructor
  · rintro ⟨_, _, hS, hT, hLe⟩
    rwa [Option.some.inj hS, Option.some.inj hT]
  · intro hLe
    exact ⟨s, t, rfl, rfl, hLe⟩

/-! ## Results that need no rounding -/

/-- A double has this value. -/
def HasDouble (v : ℚ) : Prop :=
  v = 0 ∨ ∃ m e, 0 < m ∧ IsSignificand m e ∧ |v| = m * 2 ^ e

/-- Rounding below zero mirrors rounding above. -/
theorem round_negative (m : Nat) (e : Int) :
    UnpackedFloat.round Format.binary64 .negative m e =
      (UnpackedFloat.round Format.binary64 .positive m e).neg := by
  show roundWithAccuracy _ .negative _ _ _ = (roundWithAccuracy _ .positive _ _ _).neg
  exact (apply_dite UnpackedFloat.neg (_ = 0) (fun _ => .zero .positive)
    (fun h => .finite .positive _ _ (Nat.pos_of_ne_zero h))).symm

/-- The value of a double is kept by rounding. -/
theorem unpack_round (sign : Sign) {m n : Nat} {e f : Int} (hm : 0 < m) (hn : 0 < n)
    (hKept : IsSignificand n f) (hValue : (m : ℚ) * 2 ^ e = n * 2 ^ f) :
    (pack (UnpackedFloat.round Format.binary64 sign m e)).unpack = .finite sign n f hn := by
  have hRound := round_eq_rounded (e := e) hm
  rw [hValue, rounded_of_isSignificand hn hKept] at hRound
  cases sign with
  | positive => rw [hRound, unpack_pack hKept .positive hn]
  | negative =>
      rw [round_negative, hRound]
      exact unpack_pack hKept .negative hn

/-- A result other than zero is its sign and its absolute value rounded. -/
theorem exists_normalize_eq {k : Int} (h : k ≠ 0) (e : Int) :
    ∃ sign, UnpackedFloat.normalize Format.binary64 k e .positive =
      UnpackedFloat.round Format.binary64 sign k.natAbs e ∧ sign.apply k.natAbs = k := by
  unfold UnpackedFloat.normalize
  rcases Int.lt_or_gt_of_ne h with hNeg | hPos
  · have hAbs : (-k).toNat = k.natAbs := by omega
    rw [compare_lt_iff_lt.mpr hNeg]
    refine ⟨.negative, ?_, ?_⟩
    · dsimp only
      rw [hAbs]
    · show -(k.natAbs : Int) = k
      omega
  · have hAbs : k.toNat = k.natAbs := by omega
    rw [compare_gt_iff_gt.mpr hPos]
    refine ⟨.positive, ?_, ?_⟩
    · dsimp only
      rw [hAbs]
    · show (k.natAbs : Int) = k
      omega

/-- **Nothing is lost** of a result that is the value of a double. -/
theorem value?_normalize {k e : Int} (h : HasDouble ((k : ℚ) * 2 ^ e)) :
    value? (Float.ofModel (pack (UnpackedFloat.normalize Format.binary64 k e .positive))) =
      some ((k : ℚ) * 2 ^ e) := by
  have hPow : (0 : ℚ) < 2 ^ e := zpow_pos two_pos e
  by_cases hZero : k = 0
  · have hNormal : UnpackedFloat.normalize Format.binary64 0 e .positive = .zero .positive := rfl
    rw [hZero, hNormal, Int.cast_zero, zero_mul]
    exact value?_of_zero rfl
  · have hCast : (k : ℚ) ≠ 0 := by exact_mod_cast hZero
    obtain ⟨n, f, hn, hKept, hAbs⟩ := h.resolve_left (mul_ne_zero hCast hPow.ne')
    have hValue : (k.natAbs : ℚ) * 2 ^ e = n * 2 ^ f := by
      rw [← hAbs, abs_mul, abs_of_pos hPow, Nat.cast_natAbs, Int.cast_abs]
    obtain ⟨sign, hNormal, hSign⟩ := exists_normalize_eq hZero e
    have hRound : value? (Float.ofModel (pack
        (UnpackedFloat.round Format.binary64 sign k.natAbs e))) = some (partsValue sign n f) :=
      value?_of_finite (unpack_round sign (Int.natAbs_pos.mpr hZero) hn hKept hValue)
    rw [hNormal, hRound, ← partsValue_congr sign hValue, partsValue, hSign]

/-! ## Sums and differences -/

theorem aligned_value (sign : Sign) (m : Nat) {e target : Int} (h : target ≤ e) :
    partsValue sign (decreaseExponent m e target).1 target = partsValue sign m e := by
  have hValue := decreaseExponent_value m e target
  rw [decreaseExponent_snd m e target h] at hValue
  exact partsValue_congr sign hValue

variable {x y : Float} {a b : ℚ}

theorem add_eq (x y : Float) : x + y =
    Float.ofModel (pack (UnpackedFloat.add Format.binary64 x.toModel.unpack y.toModel.unpack)) :=
  rfl

/-- A zero adds nothing. -/
theorem zero_add_eq {sign : Sign} (hX : x.toModel.unpack = .zero sign)
    (hY : value? y = some b) : value? (x + y) = some b := by
  rw [add_eq, hX]
  rcases zero_or_finite_of_value? hY with ⟨t, hY', rfl⟩ | ⟨t, n, f, hn, hY', rfl⟩
  · rw [hY']
    cases sign <;> cases t <;> exact value?_of_zero rfl
  · have hSame : UnpackedFloat.add Format.binary64 (.zero sign) y.toModel.unpack =
        y.toModel.unpack := by
      rw [hY']
      rfl
    rw [hSame, ofModel_pack_unpack, hY]

/-- **Exact sums**: where the sum of the values is the value of a double, it is that of the sum. -/
theorem value?_add (hX : value? x = some a) (hY : value? y = some b) (h : HasDouble (a + b)) :
    value? (x + y) = some (a + b) := by
  rcases zero_or_finite_of_value? hX with ⟨s, hX', rfl⟩ | ⟨s, m, e, hm, hX', rfl⟩
  · rw [zero_add]
    exact zero_add_eq hX' hY
  · rcases zero_or_finite_of_value? hY with ⟨t, hY', rfl⟩ | ⟨t, n, f, hn, hY', rfl⟩
    · have hSame : UnpackedFloat.add Format.binary64 x.toModel.unpack (.zero t) =
          x.toModel.unpack := by
        rw [hX']
        rfl
      rw [add_eq, hY', hSame, ofModel_pack_unpack, hX, add_zero]
    · have hSum : (((s.apply (decreaseExponent m e (min e f)).1 +
            t.apply (decreaseExponent n f (min e f)).1 : Int)) : ℚ) * 2 ^ min e f =
          partsValue s m e + partsValue t n f := by
        rw [← aligned_value s m (min_le_left e f), ← aligned_value t n (min_le_right e f),
          Int.cast_add, add_mul, partsValue, partsValue]
      rw [← hSum] at h ⊢
      rw [add_eq, hX', hY']
      exact value?_normalize h

theorem unpack_neg (x : Float) : (-x).toModel.unpack = x.toModel.unpack.neg := by
  show (pack x.toModel.unpack.neg).unpack = _
  cases hX : x.toModel.unpack with
  | notANumber => rfl
  | infinity sign => cases sign <;> rfl
  | zero sign => cases sign <;> rfl
  | finite sign m e hPos => exact unpack_pack (isSignificand hX) (-sign) hPos

theorem value?_neg (hX : value? x = some a) : value? (-x) = some (-a) := by
  rcases zero_or_finite_of_value? hX with ⟨s, hX', rfl⟩ | ⟨s, m, e, hm, hX', rfl⟩
  · have hNeg : (-x).toModel.unpack = .zero (-s) := by
      rw [unpack_neg, hX']
      rfl
    rw [neg_zero, value?_of_zero hNeg]
  · have hNeg : (-x).toModel.unpack = .finite (-s) m e hm := by
      rw [unpack_neg, hX']
      rfl
    rw [value?_of_finite hNeg, partsValue_neg]

theorem apply_neg (sign : Sign) (n : Int) : (-sign).apply n = -sign.apply n := by
  cases sign with
  | positive => rfl
  | negative => exact (Int.neg_neg n).symm

theorem unpacked_sub_eq (f g : UnpackedFloat) :
    UnpackedFloat.sub Format.binary64 f g = UnpackedFloat.add Format.binary64 f g.neg := by
  cases f with
  | notANumber => rfl
  | infinity s => cases g <;> rfl
  | zero s => cases g <;> rfl
  | finite s m e hm =>
      cases g with
      | notANumber => rfl
      | infinity t => rfl
      | zero t => rfl
      | finite t n f hn =>
          show UnpackedFloat.normalize _ (_ - t.apply _) _ _ =
            UnpackedFloat.normalize _ (_ + (-t).apply _) _ _
          rw [Int.sub_eq_add_neg, ← apply_neg]

/-- A difference is the sum with the other double negated. -/
theorem sub_eq_add (x y : Float) : x - y = x + -y := by
  show Float.ofModel (pack (UnpackedFloat.sub Format.binary64 _ _)) = _
  rw [unpacked_sub_eq, ← unpack_neg]
  rfl

/-- **Exact differences**, likewise. -/
theorem value?_sub (hX : value? x = some a) (hY : value? y = some b) (h : HasDouble (a - b)) :
    value? (x - y) = some (a - b) := by
  rw [sub_eq_add_neg] at h ⊢
  rw [sub_eq_add]
  exact value?_add hX (value?_neg hY) h

/-- Every integer of up to 53 bits is the value of a double. -/
theorem hasDouble_intCast {n : Int} (h : |n| < 2 ^ 53) : HasDouble n := by
  by_cases hZero : n = 0
  · exact .inl (by rw [hZero, Int.cast_zero])
  · rw [Int.abs_eq_natAbs] at h
    obtain ⟨m, e, hKept, hFull, hValue⟩ :=
      exists_isSignificand (Int.natAbs_pos.mpr hZero) (by omega)
    refine .inr ⟨m, e, by omega, hKept, ?_⟩
    rw [hValue, Nat.cast_natAbs, Int.cast_abs]

theorem value?_ofNat {n : Nat} (h : n < 2 ^ 53) : value? (Float.ofNat n) = some (n : ℚ) := by
  rcases Nat.eq_zero_or_pos n with rfl | hPos
  · rw [Nat.cast_zero]
    exact value?_of_zero rfl
  · obtain ⟨m, e, hKept, hFull, hValue⟩ := exists_isSignificand hPos h
    have hm : 0 < m := by omega
    let d : Decimal := ⟨n, 0⟩
    have hDecimal : d.value = n := by rw [Decimal.value, zpow_zero, mul_one]
    have hFloat : d.toFloat = Float.ofModel (pack (rounded d.value)) :=
      Decimal.toFloat_eq_rounded hPos
    have hUnpack : (Float.ofNat n).toModel.unpack = .finite .positive m e hm := by
      rw [hDecimal, ← hValue, rounded_of_isSignificand hm hKept] at hFloat
      exact (congrArg (fun x : Float => x.toModel.unpack) hFloat).trans
        (unpack_pack hKept .positive hm)
    rw [value?_of_finite hUnpack, partsValue_positive, hValue]

end NoteSheet.Number
