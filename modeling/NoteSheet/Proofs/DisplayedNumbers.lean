import Mathlib.Data.List.TakeWhile
import NoteSheet.Decimal.Title
import NoteSheet.Proofs.DecimalValues

/-!
# Displayed numbers read back

What the page shows of a number can be typed into a title, and the sheet then reads the number
back. The text is that of the shortest decimal, but not digit for digit: zeros at the end are
dropped or added, a point is put in or zeros before it, or a power of ten stands behind. So the
proof goes by values. Every text that is shown spells some decimal (`Title.Spells`), which the
scan of a title takes up to its last character; that decimal has the value of the shortest one;
and decimals of one value read as one double.

Main statements: `Spells.number` and `Spells.number_neg` (titles that spell a decimal are read
whole), `spells_writePositive` (what is shown spells the shortest decimal), and
`displayText_reads_back`.
-/

namespace NoteSheet.Decimal

/-! ## Digits -/

theorem ofDigits_append (xs ys : List Char) :
    ofDigits (xs ++ ys) = ofDigits xs * 10 ^ ys.length + ofDigits ys := by
  unfold ofDigits
  rw [Nat.ofDigitChars_append, Nat.ofDigitChars_eq_ofDigitChars_zero, Nat.mul_comm]

theorem ofDigits_zeros (n : Nat) : ofDigits (List.replicate n '0') = 0 := by
  unfold ofDigits
  rw [Nat.ofDigitChars_replicate_zero, Nat.mul_zero]

theorem ofDigits_digits (n : Nat) : ofDigits (digits n) = n := Nat.ofDigitChars_ten_toDigits

/-- Digits without the zeros at their end. -/
def stripped (ds : List Char) : List Char := (ds.reverse.dropWhile (· == '0')).reverse

theorem stripped_append (ds : List Char) :
    ∃ n, ds = stripped ds ++ List.replicate n '0' := by
  refine ⟨(ds.reverse.takeWhile (· == '0')).length, ?_⟩
  have hZeros : ds.reverse.takeWhile (· == '0') =
      List.replicate (ds.reverse.takeWhile (· == '0')).length '0' := by
    apply List.eq_replicate_of_mem
    intro c hMem
    exact beq_iff_eq.mp (List.all_eq_true.mp List.all_takeWhile c hMem)
  have hSplit := List.takeWhile_append_dropWhile (p := (· == '0')) (l := ds.reverse)
  rw [hZeros] at hSplit
  have hReverse := congrArg List.reverse hSplit
  rw [List.reverse_append, List.reverse_replicate, List.reverse_reverse] at hReverse
  exact hReverse.symm

/-- What digits stand for when the first one counts for this power of ten. -/
def leading (ds : List Char) (power : Int) : ℚ := ofDigits ds * 10 ^ (power + 1 - ds.length)

theorem leading_append_zeros (ds : List Char) (n : Nat) (power : Int) :
    leading (ds ++ List.replicate n '0') power = leading ds power := by
  unfold leading
  rw [ofDigits_append, ofDigits_zeros, List.length_append, List.length_replicate]
  have hPower : power + 1 - (ds.length : Int) = n + (power + 1 - (ds.length + n : Nat)) := by
    push_cast
    ring
  rw [hPower, zpow_add₀ (by norm_num), zpow_natCast]
  push_cast
  ring

end NoteSheet.Decimal

namespace NoteSheet.Title

open Decimal

/-! ## Texts of decimals -/

/-- Digits around a point; without digits after it there is no point. -/
def pointed (whole part : List Char) : List Char :=
  whole ++ if part.isEmpty then [] else '.' :: part

/-- A text that spells a decimal: digits, perhaps a point and digits, perhaps a power of ten. -/
inductive Spells : List Char → Decimal → Prop
  | intro {whole part tail : List Char} (hWhole : ∀ c ∈ whole, c.isDigit = true)
      (hPart : ∀ c ∈ part, c.isDigit = true) (hNonempty : whole ≠ [])
      (hTail : tail = [] ∨ ∃ rest, tail = 'e' :: rest) :
      Spells (pointed whole part ++ tail) (ofParts whole part (scale tail))

theorem Spells.head {cs : List Char} {d : Decimal} (h : Spells cs d) :
    ∃ c rest, cs = c :: rest ∧ c.isDigit = true := by
  obtain @⟨whole, part, tail, hWhole, hPart, hNonempty, hTail⟩ := h
  cases whole with
  | nil => exact absurd rfl hNonempty
  | cons c whole => exact ⟨c, _, rfl, hWhole c List.mem_cons_self⟩

theorem takeWhile_digits {ds rest : List Char} (hDigits : ∀ c ∈ ds, c.isDigit = true)
    (hRest : ∀ c ∈ rest.head?, c.isDigit = false) :
    (ds ++ rest).takeWhile Char.isDigit = ds ∧ (ds ++ rest).dropWhile Char.isDigit = rest := by
  rw [List.takeWhile_append_of_pos hDigits, List.dropWhile_append_of_pos hDigits]
  cases rest with
  | nil => simp
  | cons c rest =>
      have hC : c.isDigit = false := hRest c rfl
      simp [hC]

theorem not_infinity_of_isDigit {c : Char} (h : c.isDigit = true) (rest : List Char) :
    "Infinity".toList.isPrefixOf (c :: rest) = false := by
  have hNe : ('I' == c) = false := by
    refine beq_eq_false_iff_ne.mpr ?_
    rintro rfl
    exact absurd h (by decide)
  have hInfinity : "Infinity".toList = 'I' :: "nfinity".toList := by decide
  rw [hInfinity, List.isPrefixOf_cons_cons, hNe, Bool.false_and]

/-- The scan of a number takes all of a text that spells a decimal. -/
theorem Spells.magnitude {cs : List Char} {d : Decimal} (h : Spells cs d) :
    magnitude cs = d.toFloat := by
  obtain ⟨c, rest, hText, hDigit⟩ := h.head
  have hPrefix : "Infinity".toList.isPrefixOf cs = false := by
    rw [hText]
    exact not_infinity_of_isDigit hDigit rest
  unfold Title.magnitude
  rw [hPrefix, if_neg Bool.false_ne_true]
  clear hText hPrefix
  obtain @⟨whole, part, tail, hWhole, hPart, hNonempty, hTail⟩ := h
  have hTailHead : ∀ c ∈ tail.head?, c.isDigit = false := by
    rcases hTail with rfl | ⟨rest, rfl⟩
    · nofun
    · rintro c ⟨⟩
      rfl
  dsimp only [pointed]
  rw [List.append_assoc]
  cases part with
  | nil =>
      obtain ⟨hTake, hDrop⟩ := takeWhile_digits hWhole hTailHead
      have hFraction : fraction tail = ([], tail) := by
        rcases hTail with rfl | ⟨rest, rfl⟩ <;> rfl
      rw [List.isEmpty_nil, if_pos rfl, List.nil_append, hTake, hDrop, hFraction]
      dsimp only
      rw [if_neg (by simp [hNonempty])]
  | cons c part =>
      have hPoint : ∀ d ∈ ('.' :: c :: part ++ tail).head?, d.isDigit = false := by
        rintro d ⟨⟩
        rfl
      obtain ⟨hTake, hDrop⟩ := takeWhile_digits hWhole hPoint
      obtain ⟨hTake', hDrop'⟩ := takeWhile_digits hPart hTailHead
      have hFraction : fraction ('.' :: c :: part ++ tail) = (c :: part, tail) :=
        Prod.ext hTake' hDrop'
      rw [List.isEmpty_cons, if_neg Bool.false_ne_true, hTake, hDrop, hFraction]
      dsimp only
      rw [if_neg (by simp)]

theorem isBlank_of_isDigit {c : Char} (h : c.isDigit = true) : isBlank c = false := by
  have hRange : 48 ≤ c.toNat ∧ c.toNat ≤ 57 := Char.isDigit_iff_toNat.mp h
  unfold isBlank
  simp
  omega

theorem sign_of_isDigit {c : Char} (h : c.isDigit = true) (rest : List Char) :
    sign (c :: rest) = (false, c :: rest) := by
  unfold sign
  split
  case h_1 hEq =>
    cases hEq
    exact absurd h (by decide)
  case h_2 hEq =>
    cases hEq
    exact absurd h (by decide)
  case h_3 => rfl

/-- A title that spells a decimal is read as that decimal. -/
theorem Spells.number {text : String} {d : Decimal} (h : Spells text.toList d) :
    number text = d.toFloat := by
  obtain ⟨c, rest, hText, hDigit⟩ := h.head
  unfold Title.number
  rw [hText, List.dropWhile_cons_of_neg (by simp [isBlank_of_isDigit hDigit]),
    sign_of_isDigit hDigit, ← hText]
  exact h.magnitude

theorem Spells.number_neg {text : String} {d : Decimal} (h : Spells text.toList d) :
    Title.number ("-" ++ text) = -d.toFloat := by
  unfold Title.number
  rw [String.toList_append]
  show (if true = true then -Title.magnitude text.toList else _) = _
  rw [h.magnitude, if_pos rfl]

/-! ## Texts on the page -/

theorem toList_point (part : List Char) :
    (if part.isEmpty then "" else "." ++ String.ofList part).toList =
      if part.isEmpty then [] else '.' :: part := by
  split
  · rfl
  · simp

/-- The power of ten that is written behind digits is read back. -/
theorem scale_power (power : Int) :
    scale ('e' :: (if power < 0 then '-' else '+') :: digits power.natAbs) = power := by
  have hDigits : (digits power.natAbs).takeWhile Char.isDigit = digits power.natAbs :=
    List.takeWhile_eq_self_iff.mpr fun c => isDigit_of_mem_digits
  by_cases hNeg : power < 0
  · rw [if_pos hNeg]
    show -(ofDigits ((digits power.natAbs).takeWhile Char.isDigit) : Int) = power
    rw [hDigits, ofDigits_digits]
    omega
  · rw [if_neg hNeg]
    show (ofDigits ((digits power.natAbs).takeWhile Char.isDigit) : Int) = power
    rw [hDigits, ofDigits_digits]
    omega

theorem toList_scientific (ds : List Char) (power : Int) :
    (Style.display.scientific ds power).toList = pointed (ds.take 1) (ds.drop 1) ++
      'e' :: (if power < 0 then '-' else '+') :: digits power.natAbs := by
  have hSign : (if power < 0 then "-" else Style.display.plus).toList =
      [if power < 0 then '-' else '+'] := by
    split <;> rfl
  have hPower : (Nat.repr power.natAbs).toList = digits power.natAbs := String.toList_ofList
  unfold Style.scientific pointed
  simp only [String.toList_append, String.toList_ofList, toList_point, hSign, hPower]
  simp

theorem toList_positional_negSucc {ds : List Char} (hNonempty : ds ≠ []) (below : Nat) :
    (Style.display.positional ds (.negSucc below)).toList =
      pointed ['0'] (List.replicate below '0' ++ ds) := by
  simp [Style.positional, pointed, hNonempty]

theorem toList_positional_ofNat (ds : List Char) (above : Nat) :
    (Style.display.positional ds (.ofNat above)).toList =
      pointed (ds.take (above + 1) ++ List.replicate (above + 1 - ds.length) '0')
        (ds.drop (above + 1)) := by
  unfold Style.positional pointed
  rw [String.toList_append, String.toList_ofList]
  exact congrArg _ (toList_point _)

section Display

variable {ds : List Char} (hDigits : ∀ c ∈ ds, c.isDigit = true) (hNonempty : ds ≠ [])
include hDigits hNonempty

/-- A number below one, written out in full. -/
theorem spells_positional_negSucc (below : Nat) :
    ∃ d, Spells (Style.display.positional ds (.negSucc below)).toList d ∧
      d.value = leading ds (.negSucc below) := by
  have hLength : (0 : Int) - (List.replicate below '0' ++ ds).length =
      .negSucc below + 1 - ds.length := by
    rw [List.length_append, List.length_replicate]
    omega
  have hZeros : ofDigits (['0'] ++ List.replicate below '0') = 0 := ofDigits_zeros (below + 1)
  have hPart : ∀ c ∈ List.replicate below '0' ++ ds, c.isDigit = true := by
    intro c hMem
    rcases List.mem_append.mp hMem with hZero | hDigit
    · rw [List.eq_of_mem_replicate hZero]
      rfl
    · exact hDigits c hDigit
  rw [toList_positional_negSucc hNonempty, ← List.append_nil (pointed _ _)]
  refine ⟨_, .intro (by simp) hPart (by simp) (.inl rfl), ?_⟩
  unfold ofParts value leading
  dsimp only [scale]
  rw [hLength, ← List.append_assoc, ofDigits_append, hZeros, Nat.zero_mul, Nat.zero_add]

/-- A number of one or more, written out in full. -/
theorem spells_positional_ofNat (above : Nat) :
    ∃ d, Spells (Style.display.positional ds (.ofNat above)).toList d ∧
      d.value = leading ds (.ofNat above) := by
  -- either zeros are put behind the digits or a point is put between them
  have hChars : ds.take (above + 1) ++ List.replicate (above + 1 - ds.length) '0' ++
      ds.drop (above + 1) = ds ++ List.replicate (above + 1 - ds.length) '0' := by
    rcases le_total ds.length (above + 1) with hLe | hLe
    · rw [List.take_of_length_le hLe, List.drop_eq_nil_of_le hLe, List.append_nil]
    · rw [Nat.sub_eq_zero_of_le hLe]
      simp
  have hLength : (0 : Int) - (ds.drop (above + 1)).length = .ofNat above + 1 -
      (ds ++ List.replicate (above + 1 - ds.length) '0').length := by
    rw [List.length_drop, List.length_append, List.length_replicate, Int.ofNat_eq_natCast]
    omega
  have hWhole : ∀ c ∈ ds.take (above + 1) ++ List.replicate (above + 1 - ds.length) '0',
      c.isDigit = true := by
    intro c hMem
    rcases List.mem_append.mp hMem with hDigit | hZero
    · exact hDigits c (List.mem_of_mem_take hDigit)
    · rw [List.eq_of_mem_replicate hZero]
      rfl
  rw [toList_positional_ofNat, ← List.append_nil (pointed _ _)]
  refine ⟨_, .intro hWhole ?_ (by simp [hNonempty]) (.inl rfl), ?_⟩
  · exact fun c hMem => hDigits c (List.mem_of_mem_drop hMem)
  · rw [← leading_append_zeros ds (above + 1 - ds.length)]
    unfold ofParts value leading
    dsimp only [scale]
    rw [hLength, hChars]

/-- Digits with the power of ten behind them. -/
theorem spells_scientific (power : Int) :
    ∃ d, Spells (Style.display.scientific ds power).toList d ∧ d.value = leading ds power := by
  have hLength : power - (ds.drop 1).length = power + 1 - ds.length := by
    have hPos := List.length_pos_of_ne_nil hNonempty
    rw [List.length_drop]
    omega
  rw [toList_scientific]
  refine ⟨_, .intro ?_ ?_ (by simp [hNonempty]) (.inr ⟨_, rfl⟩), ?_⟩
  · exact fun c hMem => hDigits c (List.mem_of_mem_take hMem)
  · exact fun c hMem => hDigits c (List.mem_of_mem_drop hMem)
  · unfold ofParts value leading
    dsimp only
    rw [scale_power, hLength, List.take_append_drop]

end Display

/-- What is shown of a positive double spells its shortest decimal. -/
theorem spells_writePositive {x : Float} (h : 0 < (shortest x).mantissa) :
    ∃ d, Spells (Style.display.writePositive x).toList d ∧ d.value = (shortest x).value := by
  obtain ⟨n, hStripped⟩ := stripped_append (digits (shortest x).mantissa)
  have hDigits : ∀ c ∈ stripped (digits (shortest x).mantissa), c.isDigit = true := by
    intro c hMem
    apply isDigit_of_mem_digits (n := (shortest x).mantissa)
    rw [hStripped]
    exact List.mem_append_left _ hMem
  have hNonempty : stripped (digits (shortest x).mantissa) ≠ [] := by
    intro hNil
    rw [hNil, List.nil_append] at hStripped
    have hZero := congrArg ofDigits hStripped
    rw [ofDigits_digits, ofDigits_zeros] at hZero
    omega
  have hValue : leading (stripped (digits (shortest x).mantissa))
      ((shortest x).exponent + (digits (shortest x).mantissa).length - 1) =
        (shortest x).value := by
    rw [← leading_append_zeros _ n, ← hStripped]
    unfold leading value
    rw [ofDigits_digits]
    congr 2
    omega
  rw [← hValue]
  unfold Style.writePositive
  dsimp only
  split
  · generalize (shortest x).exponent + _ - 1 = power
    cases power with
    | ofNat above => exact spells_positional_ofNat hDigits hNonempty above
    | negSucc below => exact spells_positional_negSucc hDigits hNonempty below
  · exact spells_scientific hDigits hNonempty _

/-- A positive finite double is read back from its text. -/
theorem number_writePositive {x : Float} {m : Nat} {e : Int} {hm : 0 < m}
    (hX : x.toModel.unpack = .finite .positive m e hm) :
    number (Style.display.writePositive x) = x ∧
      number ("-" ++ Style.display.writePositive x) = -x := by
  have hShortest := toFloat_shortest hX
  obtain ⟨d, hSpells, hValue⟩ := spells_writePositive (mantissa_pos_of_toFloat hX hShortest)
  have hRead : d.toFloat = x := (toFloat_congr hValue).trans hShortest
  exact ⟨hSpells.number.trans hRead, hSpells.number_neg.trans (congrArg _ hRead)⟩

end NoteSheet.Title

/-! ## All doubles -/

namespace NoteSheet

open Number Float.Model UnpackedFloat

section Finite

variable {x : Float} {m : Nat} {e : Int} {hm : 0 < m}

theorem write_of_finite {sign : Sign} (hX : x.toModel.unpack = .finite sign m e hm)
    (style : Style) :
    style.write x =
      (if x.toBits.toNat < 2 ^ 63 then "" else "-") ++ style.writePositive x.abs := by
  have hNaN : x.isNaN = false := by
    show x.toModel.unpack.isNaN = false
    rw [hX]
    rfl
  have hInf : x.isInf = false := by
    show x.toModel.unpack.isInf = false
    rw [hX]
    rfl
  have hZero := beq_zero_of_finite hX
  unfold Style.write
  rw [hNaN, if_neg Bool.false_ne_true]
  dsimp only
  rw [hInf, if_neg Bool.false_ne_true, hZero, if_neg Bool.false_ne_true]
  rfl

theorem displayText_of_positive (hX : x.toModel.unpack = .finite .positive m e hm) :
    displayText x = Style.display.writePositive x := by
  unfold displayText
  rw [write_of_finite hX, if_pos ((toBits_lt_iff hX).mpr rfl), abs_of_positive hX,
    String.empty_append]

theorem displayText_of_negative (hX : x.toModel.unpack = .finite .negative m e hm) :
    displayText x = "-" ++ Style.display.writePositive x.abs := by
  unfold displayText
  rw [write_of_finite hX, if_neg (mt (toBits_lt_iff hX).mp nofun)]

end Finite

/-- Every double is read back from its text; only the sign of zero is not shown. -/
theorem number_displayText (x : Float) :
    Title.number (displayText x) = if x = -0 then 0 else x := by
  rcases special_or_finite x with rfl | rfl | rfl | rfl | rfl | ⟨sign, m, e, hm, hX⟩
  · decide
  · decide
  · decide
  · decide
  · decide
  · have hZero : x ≠ -0 := by
      rintro rfl
      cases hX
    rw [if_neg hZero]
    cases sign with
    | positive =>
        rw [displayText_of_positive hX]
        exact (Title.number_writePositive hX).1
    | negative =>
        rw [displayText_of_negative hX, (Title.number_writePositive (unpack_abs hX)).2,
          neg_abs_of_negative hX]

/-- Numbers shown alike are equal. -/
theorem beq_of_displayText_eq {x y : Float} (hX : x ≠ nan)
    (hText : displayText x = displayText y) : (x == y) = true := by
  have hRead := congrArg Title.number hText
  rw [number_displayText, number_displayText] at hRead
  by_cases hX' : x = -0 <;> by_cases hY : y = -0
  · rw [hX', hY]
    decide
  · rw [if_pos hX', if_neg hY] at hRead
    rw [hX', ← hRead]
    decide
  · rw [if_neg hX', if_pos hY] at hRead
    rw [hRead, hY]
    decide
  · rw [if_neg hX', if_neg hY] at hRead
    rw [← hRead]
    exact beq_self hX

theorem displayText_eq_of_beq {x y : Float} (h : (x == y) = true) :
    displayText x = displayText y := by
  rcases eq_or_zero_of_beq h with rfl | ⟨rfl | rfl, rfl | rfl⟩
  · rfl
  all_goals decide

/-- **Displayed numbers read back.** The text of a double is read as that double, with its sign
unless it is zero, so reading and showing it again gives the same text. Two doubles have the
same text only when they are equal as numbers or are both not a number. -/
theorem displayText_reads_back :
    (∀ x, Title.number (displayText x) = if x = -0 then 0 else x) ∧
      (∀ x, displayText (Title.number (displayText x)) = displayText x) ∧
      ∀ x y, displayText x = displayText y ↔ (x == y) = true ∨ x = nan ∧ y = nan := by
  refine ⟨number_displayText, fun x => ?_, fun x y => ⟨fun hText => ?_, ?_⟩⟩
  · rw [number_displayText]
    by_cases hZero : x = -0
    · rw [if_pos hZero, hZero]
      decide
    · rw [if_neg hZero]
  · by_cases hX : x = nan
    · rw [hX, displayText_nan] at hText
      exact .inr ⟨hX, displayText_eq_iff_nan.mp hText.symm⟩
    · exact .inl (beq_of_displayText_eq hX hText)
  · rintro (hBeq | ⟨rfl, rfl⟩)
    · exact displayText_eq_of_beq hBeq
    · rfl

end NoteSheet
