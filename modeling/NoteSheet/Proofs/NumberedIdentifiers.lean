import Mathlib.Data.Bool.AllAny
import Mathlib.Data.Nat.Digits.Lemmas
import NoteSheet.Proofs.PathGrammar

/-!
# Numbered identifiers

The identifier of a number is the number's numeral in base sixteen, in lower case and with zeros
in front of it up to the full width. As numerals of one width are equal when they say the same
number (`Hexadecimal.value_inj`), no number below `2 ^ 128` shares its identifier with another,
and every text of the full width that is written in lower case belongs to one of them.

Main statement: `Uid.numbered_bijectively`.
-/

namespace NoteSheet

/-! ## Numerals in base sixteen -/

namespace Hexadecimal

/-- The digits of base sixteen in lower case, each at the place that is its value. -/
def digits : List Char :=
  ['0', '1', '2', '3', '4', '5', '6', '7', '8', '9', 'a', 'b', 'c', 'd', 'e', 'f']

/-- The number that a numeral in base sixteen says, each digit weighed by its place. -/
def value (numeral : List Char) : Nat := Nat.ofDigits 16 (numeral.reverse.map digits.idxOf)

variable {c : Char} {numeral other : List Char}

theorem mem_digits_iff : c ∈ digits ↔ c.isDigit = true ∨ 'a' ≤ c ∧ c ≤ 'f' := by
  constructor
  · intro hMem
    have hAll : ∀ c ∈ digits, c.isDigit = true ∨ 'a' ≤ c ∧ c ≤ 'f' :=
      List.all_iff_forall_prop.mp (by decide)
    exact hAll c hMem
  · intro hRange
    have hDecimal : ∀ k < 10, Char.ofNat (48 + k) ∈ digits := by decide
    have hLetter : ∀ k < 6, Char.ofNat (97 + k) ∈ digits := by decide
    rw [← Char.ofNat_toNat c]
    rcases hRange with hDigit | ⟨hLow, hHigh⟩
    · have hBounds : 48 ≤ c.toNat ∧ c.toNat ≤ 57 := Char.isDigit_iff_toNat.mp hDigit
      have hMem := hDecimal (c.toNat - 48) (by omega)
      rwa [Nat.add_sub_cancel' hBounds.1] at hMem
    · have hLow : 97 ≤ c.toNat := hLow
      have hHigh : c.toNat ≤ 102 := hHigh
      have hMem := hLetter (c.toNat - 97) (by omega)
      rwa [Nat.add_sub_cancel' hLow] at hMem

/-- The digit of a value below sixteen. -/
theorem digitChar_spec {k : Nat} (h : k < 16) :
    Nat.digitChar k ∈ digits ∧ digits.idxOf (Nat.digitChar k) = k := by
  have hAll : ∀ k < 16, Nat.digitChar k ∈ digits ∧ digits.idxOf (Nat.digitChar k) = k := by decide
  exact hAll k h

/-- A numeral is spelled by the digits of its values. -/
theorem map_digitChar (hDigits : ∀ c ∈ numeral, c ∈ digits) :
    (numeral.map digits.idxOf).map Nat.digitChar = numeral := by
  have hSpelled : ∀ c ∈ digits, Nat.digitChar (digits.idxOf c) = c :=
    List.all_iff_forall_prop.mp (by decide)
  rw [List.map_map]
  exact (List.map_congr_left fun c hMem => hSpelled c (hDigits c hMem)).trans numeral.map_id

theorem values_lt (hDigits : ∀ c ∈ numeral, c ∈ digits) :
    ∀ v ∈ numeral.reverse.map digits.idxOf, v < 16 := by
  intro v hMem
  obtain ⟨c, hC, rfl⟩ := List.mem_map.mp hMem
  exact List.idxOf_lt_length_of_mem (hDigits c (List.mem_reverse.mp hC))

theorem value_lt (hDigits : ∀ c ∈ numeral, c ∈ digits) :
    value numeral < 16 ^ numeral.length := by
  have hLt := Nat.ofDigits_lt_base_pow_length (b := 16) (by decide) (values_lt hDigits)
  rwa [List.length_map, List.length_reverse] at hLt

/-- **Numerals of one width** are equal when they say the same number. -/
theorem value_inj (hDigits : ∀ c ∈ numeral, c ∈ digits) (hOther : ∀ c ∈ other, c ∈ digits)
    (hWidth : numeral.length = other.length) (hValue : value numeral = value other) :
    numeral = other := by
  have hValues : numeral.reverse.map digits.idxOf = other.reverse.map digits.idxOf :=
    Nat.ofDigits_inj_of_len_eq (by decide) (by simp [hWidth]) (values_lt hDigits)
      (values_lt hOther) hValue
  rw [List.map_reverse, List.map_reverse, List.reverse_inj] at hValues
  rw [← map_digitChar hDigits, hValues, map_digitChar hOther]

theorem value_append (front back : List Char) :
    value (front ++ back) = value back + 16 ^ back.length * value front := by
  unfold value
  rw [List.reverse_append, List.map_append, Nat.ofDigits_append, List.length_map,
    List.length_reverse]

theorem value_zeros (n : Nat) : value (List.replicate n '0') = 0 := by
  unfold value
  rw [List.reverse_replicate, List.map_replicate]
  exact Nat.ofDigits_replicate_zero

theorem value_digitChar {k : Nat} (h : k < 16) : value [Nat.digitChar k] = k := by
  show Nat.ofDigits 16 [digits.idxOf (Nat.digitChar k)] = k
  rw [(digitChar_spec h).2, Nat.ofDigits_singleton]

/-- The numeral of a number in base sixteen says that number. -/
theorem value_toDigits (n : Nat) : value (Nat.toDigits 16 n) = n := by
  induction n using Nat.strong_induction_on with
  | _ n ih =>
      by_cases hSmall : n < 16
      · rw [Nat.toDigits_of_lt_base hSmall]
        exact value_digitChar hSmall
      · rw [Nat.toDigits_of_base_le (by decide) (Nat.le_of_not_lt hSmall), value_append,
          value_digitChar (Nat.mod_lt n (by decide)), ih (n / 16) (by omega)]
        exact Nat.mod_add_div n 16

theorem mem_digits_of_mem_toDigits (n : Nat) : ∀ c ∈ Nat.toDigits 16 n, c ∈ digits := by
  induction n using Nat.strong_induction_on with
  | _ n ih =>
      by_cases hSmall : n < 16
      · rw [Nat.toDigits_of_lt_base hSmall]
        simpa using (digitChar_spec hSmall).1
      · rw [Nat.toDigits_of_base_le (by decide) (Nat.le_of_not_lt hSmall)]
        intro c hMem
        rcases List.mem_append.mp hMem with hMem | hMem
        · exact ih (n / 16) (by omega) c hMem
        · obtain rfl := List.mem_singleton.mp hMem
          exact (digitChar_spec (Nat.mod_lt n (by decide))).1

/-- The places of a numeral say the number up to its width. -/
theorem ofDigits_places (n width : Nat) :
    Nat.ofDigits 16 ((List.range width).map fun place => n / 16 ^ place % 16) =
      n % 16 ^ width := by
  induction width with
  | zero => exact (Nat.mod_one n).symm
  | succ width ih =>
      rw [List.range_succ, List.map_append, Nat.ofDigits_append, ih, List.length_map,
        List.length_range, List.map_singleton, Nat.ofDigits_singleton, Nat.mod_pow_succ]

end Hexadecimal

/-! ## The numeral of an identifier -/

namespace Uid

open Hexadecimal

theorem digits_ofNat (n : Nat) :
    (ofNat n).digits = (List.range width).reverse.map (digitAt n) := rfl

theorem mem_digits_ofNat (n : Nat) : ∀ c ∈ (ofNat n).digits, c ∈ Hexadecimal.digits := by
  intro c hMem
  rw [digits_ofNat] at hMem
  obtain ⟨place, -, rfl⟩ := List.mem_map.mp hMem
  exact (digitChar_spec (Nat.mod_lt _ (by decide))).1

/-- The digits of a numbered identifier say its number, as far as they reach. -/
theorem value_ofNat (n : Nat) : value (ofNat n).digits = n % 16 ^ width := by
  have hValue (place : Nat) :
      Hexadecimal.digits.idxOf (digitAt n place) = n / 16 ^ place % 16 :=
    (digitChar_spec (Nat.mod_lt _ (by decide))).2
  unfold value
  rw [digits_ofNat, ← List.map_reverse, List.reverse_reverse, List.map_map, ← ofDigits_places]
  exact congrArg _ (List.map_congr_left fun place _ => hValue place)

theorem value_ofNat_of_lt {n : Nat} (h : n < 2 ^ 128) : value (ofNat n).digits = n :=
  (value_ofNat n).trans (Nat.mod_eq_of_lt h)

/-- Lower-case digits are those of the identifier with their number. -/
theorem digits_ofNat_value {numeral : List Char} (hWidth : numeral.length = width)
    (hDigits : ∀ c ∈ numeral, c ∈ Hexadecimal.digits) :
    (ofNat (value numeral)).digits = numeral := by
  have hLt : value numeral < 16 ^ width := hWidth ▸ value_lt hDigits
  refine value_inj (mem_digits_ofNat _) hDigits ((ofNat _).width_eq.trans hWidth.symm) ?_
  exact value_ofNat_of_lt hLt

/-- A numbered identifier is the numeral of its number behind zeros. -/
theorem digits_ofNat_eq_leftpad {n : Nat} (h : n < 2 ^ 128) :
    (ofNat n).digits = (Nat.toDigits 16 n).leftpad width '0' := by
  have hLength : (Nat.toDigits 16 n).length ≤ width := Nat.toDigits_length 16 n width (by decide) h
  have hDigits : ∀ c ∈ (Nat.toDigits 16 n).leftpad width '0', c ∈ Hexadecimal.digits := by
    intro c hMem
    rcases List.mem_append.mp hMem with hZero | hMem
    · rw [List.eq_of_mem_replicate hZero]
      decide
    · exact mem_digits_of_mem_toDigits n c hMem
  have hValue : value ((Nat.toDigits 16 n).leftpad width '0') = n := by
    show value (List.replicate _ '0' ++ Nat.toDigits 16 n) = n
    rw [value_append, value_zeros, Nat.mul_zero, Nat.add_zero, value_toDigits]
  have hWidth : ((Nat.toDigits 16 n).leftpad width '0').length = width := by
    rw [List.length_leftpad, Nat.max_eq_left hLength]
  have hSame := digits_ofNat_value hWidth hDigits
  rwa [hValue] at hSame

theorem isEmpty_ofNat_iff {n : Nat} (h : n < 2 ^ 128) : (ofNat n).isEmpty = true ↔ n = 0 := by
  have hZero : ofNat 0 = empty := by decide
  unfold isEmpty
  rw [beq_iff_eq, ← hZero]
  constructor
  · intro hSame
    rw [← value_ofNat_of_lt h, hSame]
    exact value_ofNat_of_lt (by decide)
  · rintro rfl
    rfl

/-- **Numbered identifiers are a bijection.** The identifier of a number below `2 ^ 128` is the
number's numeral in base sixteen behind zeros. It has the bytes of an identifier, is parsed as
itself and says its number, and it is the empty one for the number zero alone. Every text of 32
digits and letters from `a` to `f` in lower case is the identifier of one such number, and of no
other. -/
theorem numbered_bijectively :
    (∀ n < 2 ^ 128,
      PathBytes.isUid (ofNat n).text.toList = true ∧ parse (ofNat n).text = .ok (ofNat n) ∧
        (ofNat n).text.toList = (Nat.toDigits 16 n).leftpad 32 '0' ∧
        value (ofNat n).text.toList = n ∧ ((ofNat n).isEmpty = true ↔ n = 0)) ∧
    ∀ text : String, text.length = 32 →
      (∀ c ∈ text.toList, c.isDigit = true ∨ 'a' ≤ c ∧ c ≤ 'f') →
      ∃! n, n < 2 ^ 128 ∧ (ofNat n).text = text := by
  have hText (id : Uid) : id.text.toList = id.digits := String.toList_ofList
  constructor
  · intro n hN
    rw [hText]
    exact ⟨PathBytes.isUid_iff.mpr (isUidText_digits _), parse_text _,
      digits_ofNat_eq_leftpad hN, value_ofNat_of_lt hN, isEmpty_ofNat_iff hN⟩
  · intro text hWidth hLower
    have hDigits : ∀ c ∈ text.toList, c ∈ Hexadecimal.digits := fun c hMem =>
      mem_digits_iff.mpr (hLower c hMem)
    have hLength : text.toList.length = width := by rw [String.length_toList, hWidth]
    have hLt : value text.toList < 16 ^ width := hLength ▸ value_lt hDigits
    refine ⟨value text.toList, ⟨hLt, ?_⟩, ?_⟩
    · show String.ofList (ofNat _).digits = text
      rw [digits_ofNat_value hLength hDigits, String.ofList_toList]
    · rintro n ⟨hN, rfl⟩
      rw [hText]
      exact (value_ofNat_of_lt hN).symm

/-- The last number fills the width. -/
example : (ofNat (2 ^ 128 - 1)).text = "ffffffffffffffffffffffffffffffff" := by decide

end Uid

end NoteSheet
