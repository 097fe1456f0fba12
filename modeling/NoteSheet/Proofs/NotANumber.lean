import Mathlib.Logic.Basic
import NoteSheet.Decimal.Style
import NoteSheet.Formula.Expr

/-!
# Not a number

There is one double that is not a number, every operation keeps it, and its text
is shown for nothing else. These facts carry the theory of circular formulas: a
reading that was cut off stays visible in everything computed from it.

Main statements: `isNaN_iff` (there is only one), `Operator.apply_nan_left` and
`Operator.apply_nan_right` (an operation with it gives it), `displayText_eq_iff_nan`
(only it is shown as `NaN`).
-/

namespace NoteSheet.Number

open Float.Model

theorem unpack_nan : nan.toModel.unpack = .notANumber := rfl

theorem pack_notANumber : Float.ofModel (pack .notANumber) = nan := by
  decide

/-- Only the canonical bits unpack to the value that is not a number. -/
theorem toBits_of_unpack {x : Float} (h : x.toModel.unpack = .notANumber) :
    x.toModel.toBits.toBitVec = UnpackedFloat.packedNaN Format.binary64 := by
  unfold Float.Model.unpack UnpackedFloat.unpack at h
  dsimp only at h
  rcases ite_eq_iff.mp h with ⟨hExponent, h⟩ | ⟨-, h⟩
  · rcases ite_eq_iff.mp h with ⟨-, h⟩ | ⟨hMantissa, -⟩
    · cases h
    · exact x.toModel.valid.eq_packedNaN hExponent hMantissa
  · rcases ite_eq_iff.mp h with ⟨-, h⟩ | ⟨-, h⟩
    · rcases dite_eq_iff.mp h with ⟨_, hZero⟩ | ⟨_, hFinite⟩
      · cases hZero
      · cases hFinite
    · cases h

theorem eq_of_toBits {x y : Float}
    (h : x.toModel.toBits.toBitVec = y.toModel.toBits.toBitVec) : x = y := by
  obtain ⟨⟨bitsX, validX⟩⟩ := x
  obtain ⟨⟨bitsY, validY⟩⟩ := y
  have hBits : bitsX = bitsY := UInt64.toBitVec_inj.mp h
  subst hBits
  rfl

theorem eq_nan_of_unpack {x : Float} (h : x.toModel.unpack = .notANumber) : x = nan :=
  eq_of_toBits ((toBits_of_unpack h).trans (toBits_of_unpack unpack_nan).symm)

/-- **One value**: every double that is not a number is the same double. -/
theorem isNaN_iff {x : Float} : x.isNaN = true ↔ x = nan := by
  constructor
  · intro h
    have hUnpacked : x.toModel.unpack.isNaN = true := h
    apply eq_nan_of_unpack
    cases hX : x.toModel.unpack with
    | notANumber => rfl
    | infinity s =>
        rw [hX] at hUnpacked
        exact absurd hUnpacked Bool.false_ne_true
    | zero s =>
        rw [hX] at hUnpacked
        exact absurd hUnpacked Bool.false_ne_true
    | finite s m e hm =>
        rw [hX] at hUnpacked
        exact absurd hUnpacked Bool.false_ne_true
  · rintro rfl
    rfl

/-! ## Arithmetic keeps it -/

theorem neg_nan : -nan = nan := by
  decide

end NoteSheet.Number

namespace NoteSheet.Operator

open Float.Model Number

/-- The operation on unpacked doubles that an operator rounds. -/
def unpacked : Operator → UnpackedFloat → UnpackedFloat → UnpackedFloat
  | add => UnpackedFloat.add Format.binary64
  | subtract => UnpackedFloat.sub Format.binary64
  | multiply => UnpackedFloat.mul Format.binary64
  | divide => UnpackedFloat.div Format.binary64

theorem unpacked_notANumber (operator : Operator) (x : UnpackedFloat) :
    operator.unpacked x .notANumber = .notANumber := by
  cases operator <;> cases x <;> rfl

theorem apply_eq_pack (operator : Operator) (x y : Float) :
    operator.apply x y =
      Float.ofModel (pack (operator.unpacked x.toModel.unpack y.toModel.unpack)) := by
  cases operator <;> rfl

/-- An operation whose left operand is not a number gives the value that is none. -/
@[simp] theorem apply_nan_left (operator : Operator) (y : Float) :
    operator.apply nan y = nan := by
  rw [apply_eq_pack, unpack_nan]
  cases operator <;> exact pack_notANumber

/-- An operation whose right operand is not a number gives the value that is none. -/
@[simp] theorem apply_nan_right (operator : Operator) (x : Float) :
    operator.apply x nan = nan := by
  rw [apply_eq_pack, unpack_nan, unpacked_notANumber]
  exact pack_notANumber

/-- An operation gives a number only on numbers. -/
theorem ne_nan_of_apply {operator : Operator} {x y : Float} (h : operator.apply x y ≠ nan) :
    x ≠ nan ∧ y ≠ nan := by
  constructor
  · rintro rfl
    exact h (apply_nan_left operator y)
  · rintro rfl
    exact h (apply_nan_right operator x)

end NoteSheet.Operator

/-! ## How it is shown -/

namespace NoteSheet

open Number

theorem Decimal.isDigit_of_mem_digits {n : Nat} {c : Char} (h : c ∈ Decimal.digits n) :
    c.isDigit = true :=
  Nat.isDigit_of_mem_toDigits (by decide) (by decide) h

namespace Style

/-- Whether a character begins the text of a number: a digit, a minus sign, the
first letter of infinity, or the mark of an exponent. -/
def begins (c : Char) : Bool := c.isDigit || c = '-' || c = 'I' || c = 'e'

/-- The text starts as the text of a number does. -/
def Numeric (text : String) : Prop := ∃ c ∈ text.toList.head?, begins c = true

theorem numeric_append {first : String} (h : Numeric first) (rest : String) :
    Numeric (first ++ rest) := by
  obtain ⟨c, hHead, hBegins⟩ := h
  exact ⟨c, by simp [Option.mem_def.mp hHead], hBegins⟩

theorem numeric_positional (style : Style) {ds : List Char}
    (hDigits : ∀ c ∈ ds, c.isDigit = true) (power : Int) :
    Numeric (style.positional ds power) := by
  cases power with
  | negSucc below => exact ⟨'0', by simp [positional], rfl⟩
  | ofNat above =>
      cases ds with
      | nil => exact ⟨'0', by simp [positional, List.replicate_succ], rfl⟩
      | cons d ds => exact ⟨d, by simp [positional], by simp [begins, hDigits d]⟩

theorem numeric_scientific (style : Style) {ds : List Char}
    (hDigits : ∀ c ∈ ds, c.isDigit = true) (power : Int) :
    Numeric (style.scientific ds power) := by
  cases ds with
  | nil => exact ⟨'e', by simp [scientific], rfl⟩
  | cons d ds => exact ⟨d, by simp [scientific], by simp [begins, hDigits d]⟩

theorem numeric_writePositive (style : Style) (x : Float) : Numeric (style.writePositive x) := by
  have hDigits : ∀ c ∈ ((Decimal.digits (Decimal.shortest x).mantissa).reverse.dropWhile
      (· == '0')).reverse, c.isDigit = true := by
    intro c hMem
    rw [List.mem_reverse] at hMem
    have hAll := (List.dropWhile_sublist _).subset hMem
    exact Decimal.isDigit_of_mem_digits (List.mem_reverse.mp hAll)
  unfold writePositive
  dsimp only
  split
  · exact numeric_positional style hDigits _
  · exact numeric_scientific style hDigits _

end Style

theorem displayText_nan : displayText nan = "NaN" := rfl

/-- What is not `NaN` is shown in a text that starts as the text of a number does. -/
theorem numeric_displayText {x : Float} (h : x ≠ nan) : Style.Numeric (displayText x) := by
  have hNumber : ¬ x.isNaN = true := fun hNaN => h (isNaN_iff.mp hNaN)
  unfold displayText Style.write
  rw [if_neg hNumber]
  dsimp only
  have hSigned (rest : String) (hRest : Style.Numeric rest) :
      Style.Numeric ((if x.toBits.toNat < Nat.pow 2 63 then "" else "-") ++ rest) := by
    split
    · rwa [String.empty_append]
    · exact Style.numeric_append ⟨'-', rfl, rfl⟩ rest
  split
  · exact hSigned _ ⟨'I', rfl, rfl⟩
  · split
    · exact ⟨'0', by simp [Style.display], rfl⟩
    · exact hSigned _ (Style.numeric_writePositive _ _)

/-- **One text**: only the value that is not a number is shown as `NaN`. -/
theorem displayText_eq_iff_nan {x : Float} : displayText x = "NaN" ↔ x = nan := by
  constructor
  · intro h
    apply Classical.byContradiction
    intro hNe
    obtain ⟨c, hHead, hBegins⟩ := numeric_displayText hNe
    rw [h] at hHead
    obtain rfl : 'N' = c := Option.some.inj hHead
    exact absurd hBegins (by decide)
  · rintro rfl
    exact displayText_nan

/-- No value is shown in a text that begins like the title of a formula. -/
theorem displayText_ne_formula (x : Float) {text : String} {rest : List Char}
    (hText : text.toList = '=' :: rest) : displayText x ≠ text := by
  intro h
  by_cases hNaN : x = nan
  · rw [hNaN, displayText_nan] at h
    rw [← h] at hText
    exact absurd hText (by simp)
  · obtain ⟨c, hHead, hBegins⟩ := numeric_displayText hNaN
    rw [h, hText] at hHead
    obtain rfl : '=' = c := Option.some.inj hHead
    exact absurd hBegins (by decide)

end NoteSheet
