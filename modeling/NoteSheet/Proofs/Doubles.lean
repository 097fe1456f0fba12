import Mathlib.Algebra.Group.Nat.Defs
import NoteSheet.Decimal.Shortest
import NoteSheet.Proofs.NumberOrder

/-!
# Doubles and their parts

A double is kept packed: one bit of sign, eleven of exponent and 52 of mantissa. Arithmetic
and comparison work on its unpacked form instead. This module says how the two forms of
finite doubles correspond, in both directions, and what follows for the operations on doubles
that writing and reading them use: taking the bits apart, the absolute value, the sign and
equality.

Main statements: `ofModel_pack_unpack` (packing undoes unpacking), `unpack_pack` (unpacking
undoes packing, for the parts of a double), `binaryParts_eq` (the bits spell the parts),
`eq_or_zero_of_beq` (equality of numbers is equality of doubles, but for the sign of zero).
-/

namespace NoteSheet.Number

open Float.Model UnpackedFloat

/-! ## Fields of the packed form -/

theorem toNat_unpackMantissa (b : BitVec Format.binary64.numBits) :
    (unpackMantissa b).toNat = b.toNat % 2 ^ 52 := by
  show (BitVec.extractLsb _ _ _).toNat = _
  rw [BitVec.extractLsb_toNat]
  rfl

theorem toNat_unpackExponent (b : BitVec Format.binary64.numBits) :
    (unpackExponent b).toNat = b.toNat / 2 ^ 52 % 2 ^ 11 := by
  show (BitVec.extractLsb _ _ _).toNat = _
  rw [BitVec.extractLsb_toNat, Nat.shiftRight_eq_div_pow]
  rfl

theorem toNat_unpackSign (b : BitVec Format.binary64.numBits) :
    (unpackSign b).toNat = b.toNat / 2 ^ 63 := by
  show (BitVec.extractLsb _ _ _).toNat = _
  rw [BitVec.extractLsb_toNat, Nat.shiftRight_eq_div_pow]
  have hBound : b.toNat < 2 ^ 64 := b.isLt
  show b.toNat / 2 ^ 63 % 2 ^ 1 = _
  omega

theorem toNat_packComponents (sign : Sign) (exponent : BitVec 11) (mantissa : BitVec 52) :
    (packComponents Format.binary64 sign exponent mantissa).toNat =
      (sign.toBitVec.toNat * 2 ^ 11 + exponent.toNat) * 2 ^ 52 + mantissa.toNat := by
  unfold packComponents
  rw [BitVec.toNat_append, BitVec.toNat_append, ← Nat.shiftLeft_add_eq_or_of_lt (BitVec.isLt _),
    ← Nat.shiftLeft_add_eq_or_of_lt (BitVec.isLt _), Nat.shiftLeft_eq, Nat.shiftLeft_eq]

theorem toNat_unpackExponent_pos {b : BitVec Format.binary64.numBits}
    (h : unpackExponent b ≠ 0#_) : 0 < (unpackExponent b).toNat :=
  Nat.pos_of_ne_zero fun hZero => h (BitVec.eq_of_toNat_eq hZero)

theorem toNat_unpackExponent_lt {b : BitVec Format.binary64.numBits}
    (h : unpackExponent b ≠ -1#_) : (unpackExponent b).toNat < 2 ^ 11 - 1 := by
  have hLt : (unpackExponent b).toNat < 2 ^ 11 := (unpackExponent b).isLt
  have hNe : (unpackExponent b).toNat ≠ 2 ^ 11 - 1 := fun hTop => h (BitVec.eq_of_toNat_eq hTop)
  omega

theorem toBitVec_ofBitVec (s : BitVec 1) : (Sign.ofBitVec s).toBitVec = s := by
  revert s
  decide

theorem ofBitVec_toBitVec (sign : Sign) : Sign.ofBitVec sign.toBitVec = sign := by
  cases sign <;> rfl

/-- The fields of a packed double make it up. -/
theorem packComponents_unpack (b : BitVec Format.binary64.numBits) :
    packComponents Format.binary64 (Sign.ofBitVec (unpackSign b)) (unpackExponent b)
      (unpackMantissa b) = b := by
  have hBound : b.toNat < 2 ^ 64 := b.isLt
  apply BitVec.eq_of_toNat_eq
  rw [toNat_packComponents, toBitVec_ofBitVec, toNat_unpackMantissa, toNat_unpackExponent,
    toNat_unpackSign]
  omega

theorem unpackSign_packComponents (sign : Sign) (exponent : BitVec 11) (mantissa : BitVec 52) :
    unpackSign (packComponents Format.binary64 sign exponent mantissa) = sign.toBitVec := by
  have hExponent := exponent.isLt
  have hMantissa := mantissa.isLt
  apply BitVec.eq_of_toNat_eq
  rw [toNat_unpackSign, toNat_packComponents]
  omega

/-! ## Unpacking -/

/-- A mantissa and an exponent in which a double can be kept: the mantissa has 53 bits, or
fewer at the least exponent. -/
structure IsSignificand (mantissa : Nat) (exponent : Int) : Prop where
  lt : mantissa < 2 ^ 53
  least : -1074 ≤ exponent
  greatest : exponent ≤ 971
  full : 2 ^ 52 ≤ mantissa ∨ exponent = -1074

theorem IsSignificand.log2_lt {mantissa : Nat} {exponent : Int}
    (h : IsSignificand mantissa exponent) (hPos : 0 < mantissa) : mantissa.log2 < 53 :=
  (Nat.log2_lt hPos.ne').mpr h.lt

/-- What the fields of a packed double say about it unpacked. -/
def Unpacks (b : BitVec Format.binary64.numBits) : UnpackedFloat → Prop
  | .notANumber => unpackExponent b = -1#_ ∧ unpackMantissa b ≠ 0#_
  | .infinity sign =>
      sign = Sign.ofBitVec (unpackSign b) ∧ unpackExponent b = -1#_ ∧ unpackMantissa b = 0#_
  | .zero sign =>
      sign = Sign.ofBitVec (unpackSign b) ∧ unpackExponent b = 0#_ ∧ unpackMantissa b = 0#_
  | .finite sign mantissa exponent _ =>
      sign = Sign.ofBitVec (unpackSign b) ∧
        (unpackExponent b = 0#_ ∧ mantissa = (unpackMantissa b).toNat ∧ exponent = -1074 ∨
          unpackExponent b ≠ 0#_ ∧ unpackExponent b ≠ -1#_ ∧
            mantissa = 2 ^ 52 + (unpackMantissa b).toNat ∧
              exponent = (unpackExponent b).toNat - 1075)

theorem unpacks (b : BitVec Format.binary64.numBits) :
    Unpacks b (UnpackedFloat.unpack Format.binary64 b) := by
  generalize h : UnpackedFloat.unpack Format.binary64 b = unpacked
  unfold UnpackedFloat.unpack at h
  dsimp only at h
  rcases ite_eq_iff.mp h with ⟨hExponent, h⟩ | ⟨hTop, h⟩
  · rcases ite_eq_iff.mp h with ⟨hMantissa, h⟩ | ⟨hMantissa, h⟩
    · subst h
      exact ⟨rfl, hExponent, hMantissa⟩
    · subst h
      exact ⟨hExponent, hMantissa⟩
  · rcases ite_eq_iff.mp h with ⟨hExponent, h⟩ | ⟨hLow, h⟩
    · rcases dite_eq_iff.mp h with ⟨hMantissa, h⟩ | ⟨_, h⟩
      · subst h
        exact ⟨rfl, hExponent, hMantissa⟩
      · subst h
        exact ⟨rfl, .inl ⟨hExponent, rfl, by rw [hExponent]; rfl⟩⟩
    · subst h
      refine ⟨rfl, .inr ⟨hLow, hTop, ?_, rfl⟩⟩
      rw [BitVec.toNat_append, ← Nat.shiftLeft_add_eq_or_of_lt (BitVec.isLt _), Nat.shiftLeft_eq]
      rfl

/-! ## Packing -/

section Pack

variable (sign : Sign) {mantissa : Nat} {exponent : Int} (hPos : 0 < mantissa)

theorem biased_eq (exponent : Int) : (exponent + Format.binary64.exponentBias +
    Format.binary64.mantissaBitsWithoutImplicit).toNat = (exponent + 1075).toNat := by
  show (exponent + (1023 : Nat) + (52 : Nat)).toNat = _
  omega

theorem pack_high (h : 972 ≤ exponent) :
    UnpackedFloat.pack Format.binary64 (.finite sign mantissa exponent hPos) =
      packedInfinity Format.binary64 sign := by
  unfold UnpackedFloat.pack
  dsimp only
  rw [biased_eq, if_pos (show 2 ^ 11 ≤ _ by omega)]

theorem pack_normal (hLeast : -1074 ≤ exponent) (hGreatest : exponent ≤ 971)
    (hFull : 2 ^ 52 ≤ mantissa) (hLt : mantissa < 2 ^ 53) :
    UnpackedFloat.pack Format.binary64 (.finite sign mantissa exponent hPos) =
      packComponents Format.binary64 sign (BitVec.ofNat 11 (exponent + 1075).toNat)
        (BitVec.ofNat 52 mantissa) := by
  have hLog : mantissa.log2 = 52 := (Nat.log2_eq_iff hPos.ne').mpr ⟨hFull, hLt⟩
  unfold UnpackedFloat.pack
  dsimp only
  rw [biased_eq, if_neg (show ¬ 2 ^ 11 ≤ _ by omega), hLog, if_pos (by decide)]

theorem pack_low (hGreatest : exponent ≤ 971) (hLt : mantissa < 2 ^ 52) :
    UnpackedFloat.pack Format.binary64 (.finite sign mantissa exponent hPos) =
      packComponents Format.binary64 sign 0#11 (BitVec.ofNat 52 mantissa) := by
  have hLog : mantissa.log2 < 52 := (Nat.log2_lt hPos.ne').mpr hLt
  have hNotFull : ¬ mantissa.log2 + 1 = Format.binary64.mantissaBits := by
    show ¬ _ = 1 + 52
    omega
  unfold UnpackedFloat.pack
  dsimp only
  rw [biased_eq, if_neg (show ¬ 2 ^ 11 ≤ _ by omega), if_neg hNotFull]

end Pack

theorem packComponents_ne (sign : Sign) {exponent : BitVec 11} (h : exponent.toNat < 2047)
    (mantissa : BitVec 52) :
    packComponents Format.binary64 sign exponent mantissa ≠ packedNaN Format.binary64 := by
  intro hEq
  have hNat := congrArg BitVec.toNat hEq
  have hNaN : (packedNaN Format.binary64).toNat = 2047 * 2 ^ 52 + 2 ^ 51 := by decide
  have hMantissa : mantissa.toNat < 2 ^ 52 := mantissa.isLt
  rw [toNat_packComponents, hNaN] at hNat
  omega

theorem pack_finite_ne (sign : Sign) {mantissa : Nat} (exponent : Int) (hPos : 0 < mantissa) :
    UnpackedFloat.pack Format.binary64 (.finite sign mantissa exponent hPos) ≠
      packedNaN Format.binary64 := by
  rcases Int.lt_or_le exponent 972 with hLow | hHigh
  · have hBiased : (BitVec.ofNat 11 (exponent + 1075).toNat).toNat < 2047 := by
      rw [BitVec.toNat_ofNat]
      omega
    unfold UnpackedFloat.pack
    dsimp only
    rw [biased_eq, if_neg (show ¬ 2 ^ 11 ≤ _ by omega)]
    by_cases hFull : mantissa.log2 + 1 = Format.binary64.mantissaBits
    · rw [if_pos hFull]
      exact packComponents_ne sign hBiased _
    · rw [if_neg hFull]
      exact packComponents_ne sign (by decide) _
  · rw [pack_high sign hPos hHigh]
    cases sign <;> decide

/-- Nothing else is packed like what is not a number. -/
theorem pack_eq_packedNaN_iff {f : UnpackedFloat} :
    UnpackedFloat.pack Format.binary64 f = packedNaN Format.binary64 ↔ f = .notANumber := by
  cases f with
  | notANumber => exact ⟨fun _ => rfl, fun _ => rfl⟩
  | infinity sign =>
      have hNe : packedInfinity Format.binary64 sign ≠ packedNaN Format.binary64 := by
        cases sign <;> decide
      exact ⟨fun hEq => absurd hEq hNe, nofun⟩
  | zero sign =>
      have hNe : packedZero Format.binary64 sign ≠ packedNaN Format.binary64 := by
        cases sign <;> decide
      exact ⟨fun hEq => absurd hEq hNe, nofun⟩
  | finite sign mantissa exponent hPos =>
      exact ⟨fun hEq => absurd hEq (pack_finite_ne sign exponent hPos), nofun⟩

/-- Packing undoes unpacking. -/
theorem pack_unpack {b : BitVec Format.binary64.numBits} (hValid : Format.binary64.Valid b) :
    UnpackedFloat.pack Format.binary64 (UnpackedFloat.unpack Format.binary64 b) = b := by
  have hShape := unpacks b
  have hFields := packComponents_unpack b
  cases h : UnpackedFloat.unpack Format.binary64 b with
  | notANumber =>
      rw [h] at hShape
      exact (hValid.eq_packedNaN hShape.1 hShape.2).symm
  | infinity sign =>
      rw [h] at hShape
      obtain ⟨rfl, hExponent, hMantissa⟩ := hShape
      rw [hExponent, hMantissa] at hFields
      exact hFields
  | zero sign =>
      rw [h] at hShape
      obtain ⟨rfl, hExponent, hMantissa⟩ := hShape
      rw [hExponent, hMantissa] at hFields
      exact hFields
  | finite sign mantissa exponent hPos =>
      rw [h] at hShape
      obtain ⟨rfl, ⟨hExponent, rfl, rfl⟩ | ⟨hLow, hTop, rfl, rfl⟩⟩ := hShape
      · have hBound : (unpackMantissa b).toNat < 2 ^ 52 := (unpackMantissa b).isLt
        rw [pack_low _ hPos (by omega) hBound, BitVec.ofNat_toNat, BitVec.setWidth_eq]
        rw [hExponent] at hFields
        exact hFields
      · have hBound : (unpackMantissa b).toNat < 2 ^ 52 := (unpackMantissa b).isLt
        have hPower := toNat_unpackExponent_pos hLow
        have hPower' := toNat_unpackExponent_lt hTop
        have hBiased : ((unpackExponent b).toNat - 1075 + 1075 : Int).toNat =
            (unpackExponent b).toNat := by
          omega
        have hImplicit : BitVec.ofNat 52 (2 ^ 52) = 0#52 := by decide
        rw [pack_normal _ hPos (by omega) (by omega) (by omega) (by omega), hBiased,
          BitVec.ofNat_toNat, BitVec.setWidth_eq, BitVec.ofNat_add, BitVec.ofNat_toNat,
          BitVec.setWidth_eq, hImplicit, BitVec.zero_add]
        exact hFields

theorem finite_congr {sign sign' : Sign} {mantissa mantissa' : Nat} {exponent exponent' : Int}
    {h : 0 < mantissa} {h' : 0 < mantissa'} (hSign : sign = sign')
    (hMantissa : mantissa = mantissa') (hExponent : exponent = exponent') :
    finite sign mantissa exponent h = finite sign' mantissa' exponent' h' := by
  subst hSign hMantissa hExponent
  rfl

theorem unpack_packComponents_low (sign : Sign) {mantissa : Nat} (hPos : 0 < mantissa)
    (h : mantissa < 2 ^ 52) :
    UnpackedFloat.unpack Format.binary64
        (packComponents Format.binary64 sign 0#11 (BitVec.ofNat 52 mantissa)) =
      .finite sign mantissa (-1074) hPos := by
  have hMantissa : (BitVec.ofNat 52 mantissa).toNat = mantissa := by
    rw [BitVec.toNat_ofNat, Nat.mod_eq_of_lt h]
  have hNeZero : BitVec.ofNat 52 mantissa ≠ 0#52 := fun hZero => by
    rw [hZero] at hMantissa
    exact hPos.ne hMantissa
  unfold UnpackedFloat.unpack
  dsimp only
  rw [unpackExponent_packComponents, if_neg (by decide), if_pos rfl, dif_neg]
  · apply finite_congr
    · rw [unpackSign_packComponents, ofBitVec_toBitVec]
    · rw [unpackMantissa_packComponents, hMantissa]
    · rfl
  · rwa [unpackMantissa_packComponents]

theorem unpack_packComponents_normal (sign : Sign) {power mantissa : Nat}
    (hPos : 0 < mantissa) (hPower : 0 < power) (hTop : power < 2 ^ 11 - 1)
    (hFull : 2 ^ 52 ≤ mantissa) (h : mantissa < 2 ^ 53) :
    UnpackedFloat.unpack Format.binary64
        (packComponents Format.binary64 sign (BitVec.ofNat 11 power)
          (BitVec.ofNat 52 mantissa)) =
      .finite sign mantissa (power - 1075) hPos := by
  have hToNat : (BitVec.ofNat 11 power).toNat = power := by
    rw [BitVec.toNat_ofNat, Nat.mod_eq_of_lt (by omega)]
  have hNeTop : BitVec.ofNat 11 power ≠ -1#11 := fun hEq => by
    rw [hEq] at hToNat
    exact hTop.ne hToNat.symm
  have hNeZero : BitVec.ofNat 11 power ≠ 0#11 := fun hEq => by
    rw [hEq] at hToNat
    exact hPower.ne hToNat
  unfold UnpackedFloat.unpack
  dsimp only
  rw [unpackExponent_packComponents, if_neg hNeTop, if_neg hNeZero]
  apply finite_congr
  · rw [unpackSign_packComponents, ofBitVec_toBitVec]
  · rw [unpackMantissa_packComponents, BitVec.toNat_append,
      ← Nat.shiftLeft_add_eq_or_of_lt (BitVec.isLt _), Nat.shiftLeft_eq, BitVec.toNat_ofNat]
    show 1 * 2 ^ 52 + mantissa % 2 ^ 52 = mantissa
    omega
  · rw [hToNat]
    rfl

/-- Unpacking undoes packing where the parts are those of a double. -/
theorem unpack_pack {mantissa : Nat} {exponent : Int} (h : IsSignificand mantissa exponent)
    (sign : Sign) (hPos : 0 < mantissa) :
    (pack (.finite sign mantissa exponent hPos)).unpack =
      .finite sign mantissa exponent hPos := by
  show UnpackedFloat.unpack Format.binary64 (UnpackedFloat.pack Format.binary64 _) = _
  obtain ⟨hLt, hLeast, hGreatest, hFull⟩ := h
  by_cases hNormal : 2 ^ 52 ≤ mantissa
  · rw [pack_normal sign hPos hLeast hGreatest hNormal hLt,
      unpack_packComponents_normal sign hPos (by omega) (by omega) hNormal hLt]
    exact finite_congr rfl rfl (by omega)
  · rw [pack_low sign hPos hGreatest (by omega), unpack_packComponents_low sign hPos (by omega)]
    exact finite_congr rfl rfl (by omega)

/-! ## Doubles -/

/-- The bits of a double. -/
def packed (x : Float) : BitVec Format.binary64.numBits := x.toModel.toBits.toBitVec

theorem unpacks_packed (x : Float) : Unpacks (packed x) x.toModel.unpack := unpacks _

/-- A double is its unpacked form, packed. -/
@[simp] theorem ofModel_pack_unpack (x : Float) : Float.ofModel (pack x.toModel.unpack) = x :=
  eq_of_toBits (pack_unpack (b := packed x) x.toModel.valid)

theorem eq_of_unpack {x y : Float} (h : x.toModel.unpack = y.toModel.unpack) : x = y := by
  rw [← ofModel_pack_unpack x, h, ofModel_pack_unpack]

theorem ofModel_pack_eq_nan_iff {f : UnpackedFloat} :
    Float.ofModel (pack f) = nan ↔ f = .notANumber := by
  rw [← pack_eq_packedNaN_iff, ← toBits_of_unpack unpack_nan]
  exact ⟨congrArg fun x : Float => x.toModel.toBits.toBitVec, fun hBits => eq_of_toBits hBits⟩

theorem neg_eq_nan_iff {x : Float} : -x = nan ↔ x = nan := by
  have hNeg : -x = Float.ofModel (pack x.toModel.unpack.neg) := rfl
  have hSame : x.toModel.unpack.neg = .notANumber ↔ x.toModel.unpack = .notANumber := by
    cases x.toModel.unpack with
    | notANumber => exact Iff.rfl
    | infinity sign => exact ⟨nofun, nofun⟩
    | zero sign => exact ⟨nofun, nofun⟩
    | finite sign m e hm => exact ⟨nofun, nofun⟩
  rw [hNeg, ofModel_pack_eq_nan_iff, hSame, ← ofModel_pack_eq_nan_iff, ofModel_pack_unpack]

section Finite

variable {x : Float} {sign : Sign} {mantissa : Nat} {exponent : Int} {h : 0 < mantissa}

/-- The parts of a finite double are its mantissa and exponent unpacked. -/
theorem binaryParts_eq (hX : x.toModel.unpack = .finite sign mantissa exponent h) :
    Decimal.binaryParts x = (mantissa, exponent) := by
  have hShape := unpacks_packed x
  rw [hX] at hShape
  unfold Decimal.binaryParts
  show (if (packed x).toNat / 2 ^ 52 % 2 ^ 11 = 0 then
      ((packed x).toNat % 2 ^ 52, (-1074 : Int))
    else ((packed x).toNat % 2 ^ 52 + 2 ^ 52,
      (((packed x).toNat / 2 ^ 52 % 2 ^ 11 : Nat) : Int) - 1075)) = _
  obtain ⟨-, ⟨hLow, rfl, rfl⟩ | ⟨hLow, -, rfl, rfl⟩⟩ := hShape
  · rw [if_pos (by rw [← toNat_unpackExponent, hLow]; rfl), toNat_unpackMantissa]
  · rw [if_neg (by rw [← toNat_unpackExponent]; exact (toNat_unpackExponent_pos hLow).ne'),
      toNat_unpackMantissa, toNat_unpackExponent, Nat.add_comm]

/-- A finite double is kept in a mantissa and an exponent in which a double can be kept. -/
theorem isSignificand (hX : x.toModel.unpack = .finite sign mantissa exponent h) :
    IsSignificand mantissa exponent := by
  have hShape := unpacks_packed x
  rw [hX] at hShape
  have hBound : (unpackMantissa (packed x)).toNat < 2 ^ 52 := (unpackMantissa (packed x)).isLt
  obtain ⟨-, ⟨-, rfl, rfl⟩ | ⟨hLow, hTop, rfl, rfl⟩⟩ := hShape
  · exact ⟨by omega, by omega, by omega, .inr rfl⟩
  · have hPos := toNat_unpackExponent_pos hLow
    have hLt := toNat_unpackExponent_lt hTop
    exact ⟨by omega, by omega, by omega, .inl (by omega)⟩

/-- The sign of a finite double is its first bit. -/
theorem toBits_lt_iff (hX : x.toModel.unpack = .finite sign mantissa exponent h) :
    x.toBits.toNat < 2 ^ 63 ↔ sign = .positive := by
  have hShape := unpacks_packed x
  rw [hX] at hShape
  have hSign : sign.toBitVec.toNat = (packed x).toNat / 2 ^ 63 := by
    rw [hShape.1, toBitVec_ofBitVec, toNat_unpackSign]
  show (packed x).toNat < 2 ^ 63 ↔ _
  cases sign with
  | positive =>
      change 0 = _ at hSign
      exact ⟨fun _ => rfl, fun _ => by omega⟩
  | negative =>
      change 1 = _ at hSign
      exact ⟨fun _ => by omega, nofun⟩

/-- The absolute value of a finite double has the same parts. -/
theorem unpack_abs (hX : x.toModel.unpack = .finite sign mantissa exponent h) :
    x.abs.toModel.unpack = .finite .positive mantissa exponent h := by
  show (pack x.toModel.unpack.abs).unpack = _
  rw [hX]
  exact unpack_pack (isSignificand hX) .positive h

theorem abs_of_positive (hX : x.toModel.unpack = .finite .positive mantissa exponent h) :
    x.abs = x :=
  eq_of_unpack ((unpack_abs hX).trans hX.symm)

theorem neg_abs_of_negative (hX : x.toModel.unpack = .finite .negative mantissa exponent h) :
    -x.abs = x := by
  show Float.ofModel (pack x.abs.toModel.unpack.neg) = x
  rw [unpack_abs hX, ← ofModel_pack_unpack x, hX]
  rfl

end Finite

/-! ## Equality -/

/-- Doubles are equal as numbers when they have the same standing. -/
theorem beq_iff {x y : Float} :
    (x == y) = true ↔
      ∃ a, standing? x.toModel.unpack = some a ∧ standing? y.toModel.unpack = some a := by
  have hBeq : (x == y) = true ↔ x.toModel.unpack.compare y.toModel.unpack = some .eq := by
    show (x.toModel.unpack.compare y.toModel.unpack == some .eq) = true ↔ _
    exact beq_iff_eq
  rw [hBeq, compare_eq_standing]
  cases standing? x.toModel.unpack with
  | none => exact ⟨nofun, fun ⟨_, hA, _⟩ => nomatch hA⟩
  | some a =>
      cases standing? y.toModel.unpack with
      | none => exact ⟨nofun, fun ⟨_, _, hB⟩ => nomatch hB⟩
      | some b =>
          show some (compare a b) = some .eq ↔ _
          rw [Option.some.injEq, compare_eq_iff_eq]
          constructor
          · rintro rfl
            exact ⟨a, rfl, rfl⟩
          · rintro ⟨c, hA, hB⟩
            exact Option.some.inj (hA.trans hB.symm)

theorem standing?_eq_none_iff {f : UnpackedFloat} : standing? f = none ↔ f = .notANumber := by
  rcases f with ⟨_ | _⟩ | _ | _ | ⟨_ | _, _, _, _⟩ <;>
    first
    | exact iff_of_true rfl rfl
    | exact ⟨nofun, nofun⟩

/-- A number is equal to itself. -/
theorem beq_self {x : Float} (h : x ≠ nan) : (x == x) = true := by
  cases hStanding : standing? x.toModel.unpack with
  | none => exact absurd (eq_nan_of_unpack (standing?_eq_none_iff.mp hStanding)) h
  | some a => exact beq_iff.mpr ⟨a, hStanding, hStanding⟩

/-- Of two numbers, one that is not at least the other lies below it. -/
protected theorem lt_of_not_le {x y : Float} (hX : x ≠ nan) (hY : y ≠ nan) (h : ¬ y ≤ x) :
    x < y := by
  cases hA : standing? x.toModel.unpack with
  | none => exact absurd (eq_nan_of_unpack (standing?_eq_none_iff.mp hA)) hX
  | some a =>
      cases hB : standing? y.toModel.unpack with
      | none => exact absurd (eq_nan_of_unpack (standing?_eq_none_iff.mp hB)) hY
      | some b =>
          refine lt_iff.mpr ⟨a, b, hA, hB, lt_of_not_ge fun hLe => ?_⟩
          exact h (le_iff.mpr ⟨b, a, hB, hA, hLe⟩)

/-- Unpacked doubles of one standing are the same, but for the sign of zero. -/
theorem eq_or_zero_of_standing {f g : UnpackedFloat} (h : standing? f = standing? g) :
    f = g ∨ ∃ s t, f = .zero s ∧ g = .zero t := by
  have hFinite {a : Int} {m m' : Int} {e e' : Int}
      (hEq : some (toLex (a, toLex (e, m))) = some (toLex (a, toLex (e', m')))) :
      m = m' ∧ e = e' := by
    cases hEq
    exact ⟨rfl, rfl⟩
  rcases f with ⟨_ | _⟩ | _ | s | ⟨_ | _, m, e, hm⟩ <;>
    rcases g with ⟨_ | _⟩ | _ | t | ⟨_ | _, m', e', hm'⟩ <;>
    first
    | exact .inl rfl
    | exact .inr ⟨s, t, rfl, rfl⟩
    | exact .inl (finite_congr rfl (by have := hFinite h; omega) (by have := hFinite h; omega))
    | cases h

/-- Doubles equal as numbers are the same double, but for the sign of zero. -/
theorem eq_or_zero_of_beq {x y : Float} (h : (x == y) = true) :
    x = y ∨ (x = 0 ∨ x = -0) ∧ (y = 0 ∨ y = -0) := by
  obtain ⟨a, hX, hY⟩ := beq_iff.mp h
  have hZero {x : Float} {s : Sign} (hX : x.toModel.unpack = .zero s) : x = 0 ∨ x = -0 := by
    cases s with
    | positive => exact .inl (eq_of_unpack hX)
    | negative => exact .inr (eq_of_unpack hX)
  rcases eq_or_zero_of_standing (hX.trans hY.symm) with hEq | ⟨s, t, hX, hY⟩
  · exact .inl (eq_of_unpack hEq)
  · exact .inr ⟨hZero hX, hZero hY⟩

section Finite

variable {x y : Float} {sign : Sign} {mantissa : Nat} {exponent : Int} {h : 0 < mantissa}

theorem ne_zero_of_finite (hX : x.toModel.unpack = .finite sign mantissa exponent h) :
    ¬ (x = 0 ∨ x = -0) := by
  rintro (rfl | rfl) <;> cases hX

/-- What is equal to a finite double other than zero is that double. -/
theorem eq_of_beq_finite (hY : y.toModel.unpack = .finite sign mantissa exponent h)
    (hBeq : (x == y) = true) : x = y := by
  rcases eq_or_zero_of_beq hBeq with hEq | ⟨-, hZero⟩
  · exact hEq
  · exact absurd hZero (ne_zero_of_finite hY)

theorem beq_zero_of_finite (hX : x.toModel.unpack = .finite sign mantissa exponent h) :
    (x == 0) = false := by
  rw [Bool.eq_false_iff]
  intro hBeq
  refine ne_zero_of_finite hX ?_
  rcases eq_or_zero_of_beq hBeq with hEq | ⟨hZero, -⟩
  · exact .inl hEq
  · exact hZero

end Finite

/-- A double is one of the special ones or a finite one other than zero. -/
theorem special_or_finite (x : Float) :
    x = nan ∨ x = infinity ∨ x = -infinity ∨ x = 0 ∨ x = -0 ∨
      ∃ sign mantissa exponent h, x.toModel.unpack = .finite sign mantissa exponent h := by
  cases hX : x.toModel.unpack with
  | notANumber => exact .inl (eq_nan_of_unpack hX)
  | infinity sign =>
      cases sign with
      | positive => exact .inr (.inl (eq_of_unpack hX))
      | negative => exact .inr (.inr (.inl (eq_of_unpack hX)))
  | zero sign =>
      cases sign with
      | positive => exact .inr (.inr (.inr (.inl (eq_of_unpack hX))))
      | negative => exact .inr (.inr (.inr (.inr (.inl (eq_of_unpack hX)))))
  | finite sign mantissa exponent h =>
      exact .inr (.inr (.inr (.inr (.inr ⟨sign, mantissa, exponent, h, rfl⟩))))

end NoteSheet.Number
