import NoteSheet.Proofs.Bytes
import NoteSheet.Proofs.DisplayedNumbers
import NoteSheet.Proofs.Numerals

/-!
# Numbers at the front of titles

The number of a title is read off the longest numeral at its front, whatever follows. Here the
reading is also done by the byte (`scan?`): an index goes over the sign, the figure and the
power of ten, backs out of a mark that no digit follows, and in the end the text is cut there.
As every step passes over ASCII only, the index is always between two characters.

Each part of the scan is shown to take the longest part of the grammar, by the character and
by the byte together (`sign_cases`, `figure_cases`, `power_cases`). The longest numeral is made
of these. What there is to be found at the front of a text is said without the scan (`Finds`).

Main statements: `exists_found` (the scan finds what there is) and `number_isLongest`.
-/

namespace NoteSheet.Title

/-! ## The scan by the byte -/

/-- What stands at a byte as a sign, and the byte after it. -/
def signAt (bytes : List UInt8) (i : Nat) : Bool × Nat :=
  if bytes[i]?.any (· == '-'.toUInt8) then (true, i + 1)
  else if bytes[i]?.any (· == '+'.toUInt8) then (false, i + 1)
  else (false, i)

/-- The number of digits behind a point at a byte, and the byte after them. -/
def fractionAt (bytes : List UInt8) (i : Nat) : Nat × Nat :=
  if bytes[i]?.any (· == '.'.toUInt8) then
    let stop := skip isDigitByte bytes (i + 1)
    (stop - (i + 1), stop)
  else (0, i)

/-- The number of digits in the figure at a byte, and the byte after it. -/
def figureAt (bytes : List UInt8) (i : Nat) : Nat × Nat :=
  let stop := skip isDigitByte bytes i
  let (digits, last) := fractionAt bytes stop
  (stop - i + digits, last)

/-- The byte after the power of ten at a byte. A mark without digits behind it is let be. -/
def powerAt (bytes : List UInt8) (i : Nat) : Nat :=
  if bytes[i]?.any (fun b => b == 'e'.toUInt8 || b == 'E'.toUInt8) then
    let first := (signAt bytes (i + 1)).2
    let stop := skip isDigitByte bytes first
    if first < stop then stop else i
  else i

/-! ## The parts at the front of a text -/

/-- The sign at the front is the longest there is, by the byte too. -/
theorem sign_cases {cs rest : List Char} {negative : Bool} (hScan : sign cs = (negative, rest)) :
    ∃ sgn, cs = sgn ++ rest ∧ SignText sgn negative ∧ Longest IsSign sgn rest ∧
      ∀ front, signAt (utf8 (front ++ cs)) (byteLength front) =
        (negative, byteLength (front ++ sgn)) := by
  have hBytes (front : List Char) : signAt (utf8 (front ++ cs)) (byteLength front) =
      if cs.head?.any (· == '-') then (true, byteLength front + 1)
      else if cs.head?.any (· == '+') then (false, byteLength front + 1)
      else (false, byteLength front) := by
    unfold signAt
    rw [(AsciiTest.beq (c := '-') rfl).any_getElem?, (AsciiTest.beq (c := '+') rfl).any_getElem?]
  have hShort (longer : List Char) (hSign : IsSign longer) : longer.length ≤ 1 := by
    obtain ⟨negative, hSign⟩ := hSign
    cases hSign <;> simp
  unfold sign at hScan
  split at hScan <;> cases hScan
  case h_1 =>
    refine ⟨['-'], rfl, .minus, ⟨⟨_, .minus⟩, fun longer _ => hShort longer⟩, fun front => ?_⟩
    rw [hBytes, byteLength_append]
    rfl
  case h_2 =>
    refine ⟨['+'], rfl, .plus, ⟨⟨_, .plus⟩, fun longer _ => hShort longer⟩, fun front => ?_⟩
    rw [hBytes, byteLength_append]
    rfl
  case h_3 hMinus hPlus =>
    refine ⟨[], rfl, .none, ⟨⟨_, .none⟩, ?_⟩, fun front => ?_⟩
    · rintro longer ⟨rest, hRest⟩ ⟨negative, hSign⟩
      cases hSign with
      | none => exact Nat.le_refl _
      | plus => exact absurd hRest.symm (hPlus rest)
      | minus => exact absurd hRest.symm (hMinus rest)
    · rw [hBytes, List.append_nil]
      cases cs with
      | nil => rfl
      | cons c rest =>
          have hNotMinus : c ≠ '-' := fun h => hMinus rest (h ▸ rfl)
          have hNotPlus : c ≠ '+' := fun h => hPlus rest (h ▸ rfl)
          simp [hNotMinus, hNotPlus]

theorem byteLength_digits {ds : List Char} (h : IsDigits ds) : byteLength ds = ds.length :=
  asciiTest_isDigit.byteLength_eq h

/-- Digits are counted by their bytes. -/
theorem skip_digits {text front cs : List Char} {i : Nat} (hText : text = front ++ cs)
    (hStart : i = byteLength front) :
    skip isDigitByte (utf8 text) i = i + (cs.takeWhile Char.isDigit).length := by
  rw [hText, hStart, asciiTest_isDigit.skip_eq, byteLength_append,
    byteLength_digits (longest_digits cs).holds]

/-- The fraction at the front is the longest there is, by the byte too. -/
theorem fraction_cases {cs part rest : List Char} (hScan : fraction cs = (part, rest)) :
    ∃ tail, cs = tail ++ rest ∧ IsDigits part ∧ (tail = [] ∧ part = [] ∨ tail = '.' :: part) ∧
      Longest IsFraction tail rest ∧
      ∀ front, fractionAt (utf8 (front ++ cs)) (byteLength front) =
        (part.length, byteLength (front ++ tail)) := by
  have hBytes (front : List Char) : fractionAt (utf8 (front ++ cs)) (byteLength front) =
      if cs.head?.any (· == '.') then
        (skip isDigitByte (utf8 (front ++ cs)) (byteLength front + 1) - (byteLength front + 1),
          skip isDigitByte (utf8 (front ++ cs)) (byteLength front + 1))
      else (0, byteLength front) := by
    unfold fractionAt
    rw [(AsciiTest.beq (c := '.') rfl).any_getElem?]
  unfold fraction at hScan
  split at hScan <;> cases hScan
  case h_1 rest =>
    have hDigits := longest_digits rest
    refine ⟨'.' :: rest.takeWhile Char.isDigit, by simp, hDigits.holds, .inr rfl,
      ⟨.inr ⟨_, rfl, hDigits.holds⟩, ?_⟩, fun front => ?_⟩
    · rintro longer hPrefix (rfl | ⟨ds, rfl, hLonger⟩)
      · simp
      · exact Nat.succ_le_succ
          (hDigits.longest ds (List.cons_prefix_cons.mp hPrefix).2 hLonger)
    · have hStart : byteLength front + 1 = byteLength (front ++ ['.']) := by
        rw [byteLength_append]
        rfl
      have hStop : byteLength (front ++ '.' :: rest.takeWhile Char.isDigit) =
          byteLength front + 1 + (rest.takeWhile Char.isDigit).length := by
        rw [List.append_cons, byteLength_append, ← hStart, byteLength_digits hDigits.holds]
      rw [hBytes, skip_digits (List.append_cons front '.' rest) hStart, hStop,
        Nat.add_sub_cancel_left]
      rfl
  case h_2 hPoint =>
    refine ⟨[], rfl, nofun, .inl ⟨rfl, rfl⟩, ⟨.inl rfl, ?_⟩, fun front => ?_⟩
    · rintro longer ⟨rest, hRest⟩ (rfl | ⟨ds, rfl, -⟩)
      · exact Nat.le_refl _
      · exact absurd hRest.symm (hPoint _)
    · rw [hBytes, List.append_nil]
      cases cs with
      | nil => rfl
      | cons c rest =>
          have hNotPoint : c ≠ '.' := fun h => hPoint rest (h ▸ rfl)
          simp [hNotPoint]

/-- The digits and the fraction at the front are the longest figure there is, by the byte too.
Without a digit among them there is no figure. -/
theorem figure_cases (cs : List Char) {whole part rest : List Char}
    (hWhole : cs.takeWhile Char.isDigit = whole)
    (hScan : fraction (cs.dropWhile Char.isDigit) = (part, rest)) :
    ∃ fig, cs = fig ++ rest ∧
      (whole.length + part.length ≠ 0 → FigureText fig whole part ∧ Longest IsFigure fig rest) ∧
      (whole.length + part.length = 0 → ∀ front, front <+: cs → ¬ IsFigure front) ∧
      ∀ front, figureAt (utf8 (front ++ cs)) (byteLength front) =
        (whole.length + part.length, byteLength (front ++ fig)) := by
  have hDigits := longest_digits cs
  obtain ⟨tail, hTail, hPart, hShape, hLongest, hBytes⟩ := fraction_cases hScan
  have hText := List.takeWhile_append_dropWhile (p := Char.isDigit) (l := cs)
  rw [hWhole, hTail] at hDigits hText
  have hBoth : Longest (Behind IsDigits IsFraction) (whole ++ tail) rest := by
    refine hDigits.behind hLongest ?_
    rintro _ (rfl | ⟨ds, rfl, -⟩)
    · nofun
    · rintro c ⟨⟩
      exact hDigits.holds.point_not_mem
  refine ⟨whole ++ tail, by rw [← hText, List.append_assoc], ?_, ?_, ?_⟩
  · intro hSome
    have hSome : whole ≠ [] ∨ part ≠ [] := by
      rw [← List.length_pos_iff, ← List.length_pos_iff]
      omega
    have hFig := FigureText.of_tail hDigits.holds hPart hSome hShape
    exact ⟨hFig, hBoth.mono ⟨whole, part, hFig⟩ fun cs => IsFigure.behind⟩
  · intro hNone front hPrefix hFigure
    obtain ⟨rfl, rfl⟩ : whole = [] ∧ part = [] := by
      rw [← List.length_eq_zero_iff, ← List.length_eq_zero_iff]
      omega
    rw [← hText, ← List.append_assoc] at hPrefix
    have hInside := hBoth.isPrefix hPrefix hFigure.behind
    obtain ⟨_, _, hFig⟩ := hFigure
    obtain ⟨c, hMem, hDigit⟩ := hFig.exists_digit
    have hMem := hInside.subset hMem
    rcases hShape with ⟨rfl, -⟩ | rfl
    · cases hMem
    · rw [List.mem_singleton.mp hMem] at hDigit
      cases hDigit
  · intro front
    have hStop : byteLength (front ++ whole) = byteLength front + whole.length := by
      rw [byteLength_append, byteLength_digits hDigits.holds]
    have hRest := hBytes (front ++ whole)
    rw [hStop, hTail, List.append_assoc, hText] at hRest
    unfold figureAt
    rw [skip_digits rfl rfl, hWhole]
    dsimp only
    rw [hRest, Nat.add_sub_cancel_left, List.append_assoc]

/-- The power of ten behind a mark, which is none if no digit follows. -/
theorem scale_marked {mark : Char} (hMark : mark = 'e' ∨ mark = 'E') (rest : List Char) :
    scale (mark :: rest) = signed (sign rest).1
      (Decimal.ofDigits ((sign rest).2.takeWhile Char.isDigit) : Int) := by
  rcases hMark with rfl | rfl <;> rfl

theorem scale_unmarked {cs : List Char} (h : ∀ c ∈ cs.head?, ¬ (c = 'e' ∨ c = 'E')) :
    scale cs = 0 := by
  unfold scale
  split
  case h_1 => exact absurd (.inl rfl) (h _ rfl)
  case h_2 => exact absurd (.inr rfl) (h _ rfl)
  case h_3 => rfl

/-- Without a digit the index goes back to the mark. -/
theorem powerAt_marked {mark : Char} (hMark : mark = 'e' ∨ mark = 'E') {negative : Bool}
    {sgn after : List Char} (hSignAt : ∀ front,
      signAt (utf8 (front ++ (sgn ++ after))) (byteLength front) =
        (negative, byteLength (front ++ sgn))) (front : List Char) :
    powerAt (utf8 (front ++ mark :: (sgn ++ after))) (byteLength front) =
      if after.takeWhile Char.isDigit = [] then byteLength front
      else byteLength (front ++ mark :: (sgn ++ after.takeWhile Char.isDigit)) := by
  have hOne : byteLength [mark] = 1 := by
    rcases hMark with rfl | rfl <;> rfl
  have hFirst : signAt (utf8 (front ++ mark :: (sgn ++ after))) (byteLength front + 1) =
      (negative, byteLength (front ++ mark :: sgn)) := by
    have hNext := hSignAt (front ++ [mark])
    rw [byteLength_append, hOne] at hNext
    simpa using hNext
  have hStop : skip isDigitByte (utf8 (front ++ mark :: (sgn ++ after)))
      (byteLength (front ++ mark :: sgn)) =
        byteLength (front ++ mark :: sgn) + (after.takeWhile Char.isDigit).length :=
    skip_digits (by simp) rfl
  have hLength : byteLength (front ++ mark :: (sgn ++ after.takeWhile Char.isDigit)) =
      byteLength (front ++ mark :: sgn) + (after.takeWhile Char.isDigit).length := by
    rw [← byteLength_digits (longest_digits after).holds, ← byteLength_append]
    simp
  have hMarked : (mark :: (sgn ++ after)).head?.any (fun c => c == 'e' || c == 'E') = true := by
    simpa using hMark
  unfold powerAt
  rw [((AsciiTest.beq (c := 'e') rfl).or (.beq (c := 'E') rfl)).any_getElem?, if_pos hMarked,
    hFirst, hLength]
  dsimp only
  rw [hStop]
  by_cases hNone : after.takeWhile Char.isDigit = []
  · rw [if_pos hNone, hNone, if_neg (by simp)]
  · have hSome := List.length_pos_of_ne_nil hNone
    rw [if_neg hNone, if_pos (by omega)]

/-- The power of ten at the front is the longest there is, by the byte too. -/
theorem power_cases (cs : List Char) :
    ∃ pow after, cs = pow ++ after ∧ PowerText pow (scale cs) ∧ Longest IsPower pow after ∧
      ∀ front, powerAt (utf8 (front ++ cs)) (byteLength front) = byteLength (front ++ pow) := by
  by_cases hMark : ∃ mark rest, cs = mark :: rest ∧ (mark = 'e' ∨ mark = 'E')
  · obtain ⟨mark, rest, rfl, hMark⟩ := hMark
    obtain ⟨negative, after, hScan⟩ : ∃ negative after, sign rest = (negative, after) :=
      ⟨_, _, rfl⟩
    obtain ⟨sgn, rfl, hSgn, hSign, hSignAt⟩ := sign_cases hScan
    have hScale := scale_marked hMark (sgn ++ after)
    have hBytes := powerAt_marked hMark hSignAt
    have hDigits := longest_digits after
    have hText := List.takeWhile_append_dropWhile (p := Char.isDigit) (l := after)
    rw [hScan] at hScale
    by_cases hNone : after.takeWhile Char.isDigit = []
    · refine ⟨[], mark :: (sgn ++ after), rfl, ?_, ?_, fun front => ?_⟩
      · rw [hScale]
        dsimp only
        rw [hNone]
        cases negative <;> exact .none
      · rw [hNone, List.nil_append] at hText
        rw [hNone, hText] at hDigits
        exact longest_power_of_no_digits hMark hSign hDigits
      · rw [hBytes, if_pos hNone, List.append_nil]
    · rw [← hText] at hSign
      refine ⟨mark :: (sgn ++ after.takeWhile Char.isDigit), after.dropWhile Char.isDigit,
        by simp, ?_, longest_power_of_digits hMark hSign hDigits hNone, fun front => ?_⟩
      · rw [hScale]
        exact .marked hMark hSgn hNone hDigits.holds
      · rw [hBytes, if_neg hNone]
  · have hOther : ∀ c ∈ cs.head?, ¬ (c = 'e' ∨ c = 'E') := by
      intro c hHead hIs
      exact hMark ⟨c, cs.tail, (List.cons_head?_tail hHead).symm, hIs⟩
    refine ⟨[], cs, rfl, ?_, ⟨⟨0, .none⟩, ?_⟩, fun front => ?_⟩
    · rw [scale_unmarked hOther]
      exact .none
    · rintro longer hPrefix ⟨power, hPower⟩
      cases hPower with
      | none => exact Nat.le_refl _
      | marked marks =>
          obtain ⟨rest, hRest⟩ := hPrefix
          exact absurd ⟨_, _, hRest.symm, marks⟩ hMark
    · unfold powerAt
      rw [((AsciiTest.beq (c := 'e') rfl).or (.beq (c := 'E') rfl)).any_getElem?,
        List.append_nil]
      cases cs with
      | nil => rfl
      | cons c rest => simp_all

/-! ## What is found -/

/-- What is found at the front of a title. -/
inductive Found where
  | infinity (negative : Bool)
  | numeral (text : List Char)
  | nothing
deriving DecidableEq

/-- Looks by the byte for what is at the front of a text. There is no answer where a slice would
cut a character in two. -/
def scan? (cs : List Char) : Option Found :=
  let bytes := utf8 cs
  let (negative, start) := signAt bytes 0
  (slice? cs start bytes.length).bind fun rest =>
    if "Infinity".toList.isPrefixOf rest then some (.infinity negative)
    else
      let (digits, stop) := figureAt bytes start
      if digits = 0 then some .nothing
      else (slice? cs 0 (powerAt bytes stop)).map .numeral

/-- The text begins with `Infinity`, with or without a sign. -/
def IsInfinite (cs : List Char) (negative : Bool) : Prop :=
  ∃ sgn rest, SignText sgn negative ∧ cs = sgn ++ "Infinity".toList ++ rest

/-- What there is to be found: infinity, or else the longest numeral, or else nothing. -/
inductive Finds (cs : List Char) : Found → Prop
  | infinity {negative : Bool} (infinite : IsInfinite cs negative) : Finds cs (.infinity negative)
  | numeral {text after : List Char} (finite : ∀ negative, ¬ IsInfinite cs negative)
      (whole : cs = text ++ after) (longest : Longest IsDecimal text after) :
      Finds cs (.numeral text)
  | nothing (finite : ∀ negative, ¬ IsInfinite cs negative)
      (none : ∀ front, front <+: cs → ¬ IsDecimal front) : Finds cs .nothing

/-- The double that something found stands for. A numeral stands for the double nearest to the
decimal that it writes. -/
inductive Found.Stands : Found → Float → Prop
  | infinity (negative : Bool) : Stands (.infinity negative) (signed negative Number.infinity)
  | numeral {text : List Char} {negative : Bool} {d : Decimal}
      (writes : NumeralText text negative d) : Stands (.numeral text) (signed negative d.toFloat)
  | nothing : Stands .nothing Number.nan

/-- A title without the blanks in front of it. -/
def trimmed (title : String) : List Char := title.toList.dropWhile isBlank

theorem isInfinite_iff {cs rest : List Char} {scanned negative : Bool}
    (hScan : sign cs = (scanned, rest)) :
    IsInfinite cs negative ↔ scanned = negative ∧ "Infinity".toList.isPrefixOf rest = true := by
  rw [List.isPrefixOf_iff_prefix]
  constructor
  · rintro ⟨sgn, others, hSgn, rfl⟩
    have hScan' : sign (sgn ++ "Infinity".toList ++ others) =
        (negative, "Infinity".toList ++ others) := by
      cases hSgn <;> rfl
    rw [hScan'] at hScan
    cases hScan
    exact ⟨rfl, List.prefix_append _ _⟩
  · rintro ⟨rfl, others, hOthers⟩
    obtain ⟨sgn, hText, hSgn, -⟩ := sign_cases hScan
    exact ⟨sgn, others, hSgn, by rw [List.append_assoc, hOthers, hText]⟩

theorem Finds.unique {cs : List Char} {found found' : Found} (h : Finds cs found)
    (h' : Finds cs found') : found = found' := by
  obtain ⟨scanned, rest, hScan⟩ : ∃ scanned rest, sign cs = (scanned, rest) := ⟨_, _, rfl⟩
  cases h with
  | infinity infinite =>
      cases h' with
      | infinity infinite' =>
          rw [← ((isInfinite_iff hScan).mp infinite).1, ((isInfinite_iff hScan).mp infinite').1]
      | numeral finite => exact absurd infinite (finite _)
      | nothing finite => exact absurd infinite (finite _)
  | numeral finite whole longest =>
      cases h' with
      | infinity infinite => exact absurd infinite (finite _)
      | numeral _ whole' longest' => rw [(longest.unique longest' (whole.symm.trans whole')).1]
      | nothing _ none =>
          exact absurd longest.holds (none _ ⟨_, whole.symm⟩)
  | nothing finite none =>
      cases h' with
      | infinity infinite => exact absurd infinite (finite _)
      | numeral _ whole longest => exact absurd longest.holds (none _ ⟨_, whole.symm⟩)
      | nothing => rfl

theorem Found.Stands.unique {found : Found} {x y : Float} (h : found.Stands x)
    (h' : found.Stands y) : x = y := by
  cases h with
  | infinity => cases h'; rfl
  | numeral writes =>
      cases h' with
      | numeral writes' =>
          obtain ⟨rfl, rfl⟩ := writes.unique writes' rfl
          rfl
  | nothing => cases h'; rfl

theorem magnitude_eq {cs whole part rest : List Char}
    (hFinite : ¬ "Infinity".toList.isPrefixOf cs = true)
    (hWhole : cs.takeWhile Char.isDigit = whole)
    (hScan : fraction (cs.dropWhile Char.isDigit) = (part, rest)) :
    magnitude cs = if whole.length + part.length = 0 then Number.nan
      else (Decimal.ofParts whole part (scale rest)).toFloat := by
  unfold magnitude
  rw [if_neg hFinite, hWhole, hScan]
  dsimp only
  simp only [Bool.and_eq_true, List.isEmpty_iff, Nat.add_eq_zero_iff, List.length_eq_zero_iff]

/-- The scan behind the sign. -/
theorem scan?_eq {sgn rest : List Char} {negative : Bool}
    (hSignAt : signAt (utf8 (sgn ++ rest)) 0 = (negative, byteLength sgn)) :
    scan? (sgn ++ rest) = if "Infinity".toList.isPrefixOf rest then some (.infinity negative)
      else if (figureAt (utf8 (sgn ++ rest)) (byteLength sgn)).1 = 0 then some .nothing
      else (slice? (sgn ++ rest) 0 (powerAt (utf8 (sgn ++ rest))
        (figureAt (utf8 (sgn ++ rest)) (byteLength sgn)).2)).map .numeral := by
  have hRest : slice? (sgn ++ rest) (byteLength sgn) (utf8 (sgn ++ rest)).length = some rest :=
    slice?_eq_some_iff.mpr ⟨sgn, [], by simp, rfl, (length_utf8 _).symm⟩
  unfold scan?
  dsimp only
  rw [hSignAt]
  dsimp only
  rw [hRest, Option.bind_some]

/-- The number of a title stands for what the scan finds, and the scan finds what there is. -/
theorem exists_found (cs : List Char) : ∃ found, scan? cs = some found ∧ Finds cs found ∧
    found.Stands (signed (sign cs).1 (magnitude (sign cs).2)) := by
  obtain ⟨negative, rest, hScan⟩ : ∃ negative rest, sign cs = (negative, rest) := ⟨_, _, rfl⟩
  have hInfinite (negative' : Bool) : IsInfinite cs negative' ↔ _ := isInfinite_iff hScan
  obtain ⟨sgn, rfl, hSgn, hSign, hSignAt⟩ := sign_cases hScan
  rw [hScan, scan?_eq (hSignAt [])]
  by_cases hPrefix : "Infinity".toList.isPrefixOf rest = true
  · have hValue : magnitude rest = Number.infinity := if_pos hPrefix
    rw [if_pos hPrefix, hValue]
    exact ⟨_, rfl, .infinity ((hInfinite negative).mpr ⟨rfl, hPrefix⟩), .infinity negative⟩
  · have hFinite (negative' : Bool) : ¬ IsInfinite (sgn ++ rest) negative' := fun h =>
      hPrefix ((hInfinite negative').mp h).2
    obtain ⟨part, after, hFraction⟩ : ∃ part after,
        fraction (rest.dropWhile Char.isDigit) = (part, after) := ⟨_, _, rfl⟩
    obtain ⟨fig, hText, hSome, hNone, hFigureAt⟩ := figure_cases rest rfl hFraction
    rw [if_neg hPrefix, magnitude_eq hPrefix rfl hFraction, hFigureAt sgn]
    by_cases hDigits : (rest.takeWhile Char.isDigit).length + part.length = 0
    · have hNan : signed negative Number.nan = Number.nan := by
        cases negative
        · rfl
        · exact Number.neg_nan
      rw [if_pos hDigits, if_pos hDigits, hNan]
      exact ⟨_, rfl, .nothing hFinite (not_isDecimal_of_not_isFigure hSign (hNone hDigits)),
        .nothing⟩
    · obtain ⟨hFig, hFigure⟩ := hSome hDigits
      obtain ⟨pow, others, rfl, hPow, hPower, hPowerAt⟩ := power_cases after
      have hStop : powerAt (utf8 (sgn ++ rest)) (byteLength (sgn ++ fig)) =
          byteLength (sgn ++ (fig ++ pow)) := by
        have hAt := hPowerAt (sgn ++ fig)
        rwa [List.append_assoc, List.append_assoc, ← hText] at hAt
      have hSlice : slice? (sgn ++ rest) 0 (byteLength (sgn ++ (fig ++ pow))) =
          some (sgn ++ (fig ++ pow)) :=
        slice?_eq_some_iff.mpr ⟨[], others, by simp [hText], rfl, rfl⟩
      rw [if_neg hDigits, if_neg hDigits, hStop, hSlice]
      rw [hText, ← List.append_assoc] at hSign
      exact ⟨_, rfl, .numeral hFinite (by simp [hText]) (longest_isDecimal hSign hFigure hPower),
        .numeral (.intro hSgn hFig hPow)⟩

/-- A title has no number exactly where nothing is found. -/
theorem Found.Stands.isNaN_iff {found : Found} {x : Float} (h : found.Stands x) :
    x.isNaN = true ↔ found = .nothing := by
  rw [Number.isNaN_iff]
  have hSigned {negative : Bool} {y : Float} (hNumber : y ≠ Number.nan) :
      signed negative y ≠ Number.nan := by
    cases negative
    · exact hNumber
    · exact fun hEq => hNumber (Number.neg_eq_nan_iff.mp hEq)
  cases h with
  | infinity negative => simp [hSigned (show Number.infinity ≠ Number.nan by decide)]
  | numeral writes => simp [hSigned (Decimal.toFloat_ne_nan _)]
  | nothing => simp

/-- **The longest numeral counts**: whatever the title is, the scan by the byte finds what there
is at its front, infinity or the longest numeral or nothing, and cuts no character in two. The
number of the title is what that stands for, and it is no number only where there is nothing.
So it depends on nothing that comes after what is found. -/
theorem number_isLongest (title : String) :
    (∃ found, scan? (trimmed title) = some found ∧
      (∀ other, Finds (trimmed title) other ↔ other = found) ∧
      (∀ x, found.Stands x ↔ x = number title) ∧
      ((number title).isNaN = true ↔ found = .nothing)) ∧
    ∀ other found, Finds (trimmed title) found → Finds (trimmed other) found →
      number other = number title := by
  obtain ⟨found, hScan, hFinds, hStands⟩ := exists_found (trimmed title)
  refine ⟨⟨found, hScan, fun other => ⟨fun h => h.unique hFinds, fun h => h ▸ hFinds⟩,
    fun x => ⟨fun h => h.unique hStands, fun h => h ▸ hStands⟩, hStands.isNaN_iff⟩, ?_⟩
  intro other found' hFinds' hOther
  obtain ⟨found'', -, hFinds'', hStands''⟩ := exists_found (trimmed other)
  obtain rfl := hFinds'.unique hFinds
  obtain rfl := hFinds''.unique hOther
  exact hStands''.unique hStands

/-- Two titles of one number: behind it there is a word, or a mark without digits and a
character of two bytes. -/
theorem number_isLongest_measures :
    Finds (trimmed " 12.5 kg") (.numeral "12.5".toList) ∧
      Finds (trimmed "12.5e+é") (.numeral "12.5".toList) ∧
      number "12.5e+é" = number " 12.5 kg" := by
  obtain ⟨⟨found, hScan, hFinds, -⟩, hSame⟩ := number_isLongest " 12.5 kg"
  obtain ⟨⟨found', hScan', hFinds', -⟩, -⟩ := number_isLongest "12.5e+é"
  have hFound : scan? (trimmed " 12.5 kg") = some (.numeral "12.5".toList) := by decide +kernel
  have hFound' : scan? (trimmed "12.5e+é") = some (.numeral "12.5".toList) := by decide +kernel
  obtain rfl := Option.some.inj (hFound.symm.trans hScan)
  obtain rfl := Option.some.inj (hFound'.symm.trans hScan')
  have hHere := (hFinds _).mpr rfl
  have hThere := (hFinds' _).mpr rfl
  exact ⟨hHere, hThere, hSame _ _ hHere hThere⟩

end NoteSheet.Title
