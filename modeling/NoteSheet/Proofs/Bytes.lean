import NoteSheet.Proofs.Tokenization

/-!
# Texts by the byte

A scanner may go over the bytes of a text in UTF-8 by index, and cut the text where an index
says. Then there is more that can go wrong than with characters: an index may be past the end,
and a cut may come to lie inside a character (`slice?` has no result for either).

What keeps such a scanner right is that it looks for ASCII only. A byte below 128 is a
character of its own and never a part of one, so a test that only such bytes pass
(`AsciiTest`) is a test of characters, and what it stops at is the first byte of a character.

Main statements: `slice?_eq_some_iff`, `AsciiTest.all_utf8`, `AsciiTest.any_getElem?`,
`AsciiTest.skip_eq` and `AsciiTest.exists_of_getElem?`.
-/

namespace NoteSheet

/-- The bytes of a text in UTF-8. -/
def utf8 (cs : List Char) : List UInt8 := cs.flatMap String.utf8EncodeChar

theorem utf8_append (cs ds : List Char) : utf8 (cs ++ ds) = utf8 cs ++ utf8 ds :=
  List.flatMap_append

theorem utf8_cons (c : Char) (cs : List Char) :
    utf8 (c :: cs) = String.utf8EncodeChar c ++ utf8 cs := rfl

@[simp] theorem length_utf8 (cs : List Char) : (utf8 cs).length = byteLength cs := by
  induction cs with
  | nil => rfl
  | cons c cs ih =>
      rw [utf8_cons, List.length_append, String.length_utf8EncodeChar, ih]
      rfl

theorem utf8EncodeChar_ne_nil (c : Char) : String.utf8EncodeChar c ≠ [] := by
  rw [ne_eq, ← List.length_eq_zero_iff, String.length_utf8EncodeChar]
  exact c.utf8Size_pos.ne'

/-- The byte at the end of the front of a text is the first byte of the rest. -/
theorem getElem?_utf8_append (front rest : List Char) :
    (utf8 (front ++ rest))[byteLength front]? = (utf8 rest).head? := by
  rw [utf8_append, ← length_utf8, List.getElem?_append_right (Nat.le_refl _), Nat.sub_self,
    List.head?_eq_getElem?]

/-! ## Slices -/

/-- Cuts a text at a byte. There is no result inside a character or past the end. -/
def splitAtByte? : List Char → Nat → Option (List Char × List Char)
  | cs, 0 => some ([], cs)
  | [], _ + 1 => none
  | c :: cs, n + 1 =>
      if c.utf8Size ≤ n + 1 then
        (splitAtByte? cs (n + 1 - c.utf8Size)).map fun (front, back) => (c :: front, back)
      else none

theorem byteLength_eq_zero_iff {cs : List Char} : byteLength cs = 0 ↔ cs = [] := by
  cases cs with
  | nil => simp [byteLength]
  | cons c cs =>
      have hPos := c.utf8Size_pos
      simp only [byteLength, List.foldr_cons, reduceCtorEq, iff_false]
      omega

/-- A cut is made between two characters or not at all. -/
theorem splitAtByte?_eq_some_iff {cs front back : List Char} {n : Nat} :
    splitAtByte? cs n = some (front, back) ↔ cs = front ++ back ∧ byteLength front = n := by
  induction cs, n using splitAtByte?.induct generalizing front with
  | case1 cs =>
      rw [splitAtByte?, byteLength_eq_zero_iff]
      constructor
      · rintro ⟨⟩
        exact ⟨rfl, rfl⟩
      · rintro ⟨rfl, rfl⟩
        rfl
  | case2 n =>
      rw [splitAtByte?]
      constructor
      · nofun
      · rintro ⟨hNil, hLength⟩
        obtain ⟨rfl, rfl⟩ := List.append_eq_nil_iff.mp hNil.symm
        cases hLength
  | case3 c cs n hFits ih =>
      rw [splitAtByte?, if_pos hFits]
      constructor
      · intro hSplit
        obtain ⟨⟨front, back⟩, hSplit, hEq⟩ := Option.map_eq_some_iff.mp hSplit
        cases hEq
        obtain ⟨rfl, hLength⟩ := ih.mp hSplit
        refine ⟨rfl, ?_⟩
        show c.utf8Size + byteLength front = n + 1
        omega
      · rintro ⟨hText, hLength⟩
        cases front with
        | nil => cases hLength
        | cons d front =>
            obtain ⟨rfl, rfl⟩ := List.cons.inj hText
            have hSize : c.utf8Size + byteLength front = n + 1 := hLength
            rw [ih.mpr ⟨rfl, by omega⟩]
            rfl
  | case4 c cs n hFits =>
      rw [splitAtByte?, if_neg hFits]
      constructor
      · nofun
      · rintro ⟨hText, hLength⟩
        cases front with
        | nil => cases hLength
        | cons d front =>
            obtain ⟨rfl, rfl⟩ := List.cons.inj hText
            have hSize : c.utf8Size + byteLength front = n + 1 := hLength
            omega

/-- The text from one byte up to another. -/
def slice? (cs : List Char) (start stop : Nat) : Option (List Char) := do
  let (front, _) ← splitAtByte? cs stop
  let (_, middle) ← splitAtByte? front start
  return middle

/-- A slice begins and ends between two characters. -/
theorem slice?_eq_some_iff {cs middle : List Char} {start stop : Nat} :
    slice? cs start stop = some middle ↔ ∃ front back, cs = front ++ middle ++ back ∧
      byteLength front = start ∧ byteLength (front ++ middle) = stop := by
  constructor
  · intro hSlice
    obtain ⟨⟨front, back⟩, hStop, hSlice⟩ := Option.bind_eq_some_iff.mp hSlice
    obtain ⟨⟨before, middle⟩, hStart, hSlice⟩ := Option.bind_eq_some_iff.mp hSlice
    cases hSlice
    obtain ⟨rfl, hStopAt⟩ := splitAtByte?_eq_some_iff.mp hStop
    obtain ⟨rfl, hStartAt⟩ := splitAtByte?_eq_some_iff.mp hStart
    exact ⟨before, back, rfl, hStartAt, hStopAt⟩
  · rintro ⟨front, back, rfl, hStart, hStop⟩
    unfold slice?
    rw [splitAtByte?_eq_some_iff.mpr ⟨rfl, hStop⟩]
    show (splitAtByte? (front ++ middle) start).bind (fun split => some split.2) = some middle
    rw [splitAtByte?_eq_some_iff.mpr ⟨rfl, hStart⟩]
    rfl

/-! ## Looking for ASCII -/

/-- A test of bytes that is a test of characters: nothing but ASCII passes either one, and on
ASCII they agree. -/
structure AsciiTest (onBytes : UInt8 → Bool) (onChars : Char → Bool) : Prop where
  agree : ∀ c, c.utf8Size = 1 → onBytes c.toUInt8 = onChars c
  byte_lt : ∀ b, onBytes b = true → b < 128
  utf8Size_eq : ∀ c, onChars c = true → c.utf8Size = 1

/-- The bytes of a character beyond ASCII are all 128 or more. -/
theorem le_of_mem_utf8EncodeChar {c : Char} (hWide : c.utf8Size ≠ 1) {b : UInt8}
    (hMem : b ∈ String.utf8EncodeChar c) : 128 ≤ b := by
  have hVal : ¬ c.val.toNat ≤ 127 := fun hLe => hWide (Char.utf8Size_eq_one_iff.mpr hLe)
  unfold String.utf8EncodeChar at hMem
  dsimp only at hMem
  rw [if_neg hVal] at hMem
  rw [UInt8.le_iff_toNat_le]
  -- each of the bytes is a few bits of the character on top of 128, 192, 224 or 240
  split_ifs at hMem <;> simp only [List.mem_cons, List.not_mem_nil, or_false] at hMem <;>
    rcases hMem with rfl | rfl | rfl | rfl <;> simp <;> omega

/-- The byte of an ASCII character has the number of the character. -/
theorem toNat_toUInt8 {c : Char} (hSize : c.utf8Size = 1) : c.toUInt8.toNat = c.val.toNat := by
  have hLe : c.val.toNat ≤ 127 := Char.utf8Size_eq_one_iff.mp hSize
  show c.val.toUInt8.toNat = c.val.toNat
  rw [UInt32.toNat_toUInt8]
  omega

/-- Looking for the ASCII characters of a range. -/
theorem AsciiTest.between {lo hi : Char} (hLo : lo.utf8Size = 1) (hHi : hi.utf8Size = 1) :
    AsciiTest (fun b => lo.toUInt8 ≤ b && b ≤ hi.toUInt8) (fun c => lo ≤ c && c ≤ hi) where
  agree c hSize := by
    simp only [UInt8.le_iff_toNat_le, Char.le_def, UInt32.le_iff_toNat_le, toNat_toUInt8 hLo,
      toNat_toUInt8 hHi, toNat_toUInt8 hSize]
  byte_lt b hPass := by
    have hLe : hi.val.toNat ≤ 127 := Char.utf8Size_eq_one_iff.mp hHi
    simp only [Bool.and_eq_true, decide_eq_true_eq, UInt8.le_iff_toNat_le,
      toNat_toUInt8 hHi] at hPass
    rw [UInt8.lt_iff_toNat_lt]
    exact Nat.lt_succ_of_le (hPass.2.trans hLe)
  utf8Size_eq c hPass := by
    have hLe : hi.val ≤ 127 := Char.utf8Size_eq_one_iff.mp hHi
    simp only [Bool.and_eq_true, decide_eq_true_eq, Char.le_def] at hPass
    exact Char.utf8Size_eq_one_iff.mpr (UInt32.le_trans hPass.2 hLe)

/-- Looking for one ASCII character. -/
theorem AsciiTest.beq {c : Char} (hSize : c.utf8Size = 1) :
    AsciiTest (· == c.toUInt8) (· == c) where
  agree d hOther := by
    rw [Bool.eq_iff_iff, beq_iff_eq, beq_iff_eq, ← UInt8.toNat_inj, toNat_toUInt8 hSize,
      toNat_toUInt8 hOther, UInt32.toNat_inj, Char.ext_iff]
  byte_lt b hPass := by
    have hLe : c.val.toNat ≤ 127 := Char.utf8Size_eq_one_iff.mp hSize
    rw [beq_iff_eq.mp hPass, UInt8.lt_iff_toNat_lt, toNat_toUInt8 hSize]
    exact Nat.lt_succ_of_le hLe
  utf8Size_eq d hPass := by rw [beq_iff_eq.mp hPass, hSize]

theorem AsciiTest.or {onBytes onBytes' : UInt8 → Bool} {onChars onChars' : Char → Bool}
    (test : AsciiTest onBytes onChars) (test' : AsciiTest onBytes' onChars') :
    AsciiTest (fun b => onBytes b || onBytes' b) (fun c => onChars c || onChars' c) where
  agree c hSize := by rw [test.agree c hSize, test'.agree c hSize]
  byte_lt b hPass := by
    rcases Bool.or_eq_true_iff.mp hPass with hPass | hPass
    · exact test.byte_lt b hPass
    · exact test'.byte_lt b hPass
  utf8Size_eq c hPass := by
    rcases Bool.or_eq_true_iff.mp hPass with hPass | hPass
    · exact test.utf8Size_eq c hPass
    · exact test'.utf8Size_eq c hPass

namespace AsciiTest

variable {onBytes : UInt8 → Bool} {onChars : Char → Bool} (test : AsciiTest onBytes onChars)
include test

theorem onBytes_eq_false {c : Char} (hWide : c.utf8Size ≠ 1) {b : UInt8}
    (hMem : b ∈ String.utf8EncodeChar c) : onBytes b = false := by
  rw [← Bool.not_eq_true]
  intro hPass
  exact absurd (test.byte_lt b hPass) (UInt8.not_lt.mpr (le_of_mem_utf8EncodeChar hWide hMem))

theorem onChars_eq_false {c : Char} (hWide : c.utf8Size ≠ 1) : onChars c = false := by
  rw [← Bool.not_eq_true]
  exact fun hPass => hWide (test.utf8Size_eq c hPass)

/-- The bytes of a character pass, all or the first, when the character does. -/
theorem all_utf8EncodeChar (c : Char) : (String.utf8EncodeChar c).all onBytes = onChars c ∧
    (String.utf8EncodeChar c).head?.any onBytes = onChars c := by
  by_cases hSize : c.utf8Size = 1
  · rw [String.utf8EncodeChar_eq_singleton hSize]
    simp [test.agree c hSize]
  · obtain ⟨b, bytes, hBytes⟩ := List.exists_cons_of_ne_nil (utf8EncodeChar_ne_nil c)
    have hFirst : onBytes b = false := test.onBytes_eq_false hSize (by simp [hBytes])
    rw [test.onChars_eq_false hSize, hBytes]
    simp [hFirst]

/-- All bytes of a text pass when all its characters do. -/
theorem all_utf8 (cs : List Char) : (utf8 cs).all onBytes = cs.all onChars := by
  induction cs with
  | nil => rfl
  | cons c cs ih =>
      rw [utf8_cons, List.all_append, (test.all_utf8EncodeChar c).1, ih, List.all_cons]

/-- A text that passes has a byte for each character. -/
theorem byteLength_eq {cs : List Char} (hPass : ∀ c ∈ cs, onChars c = true) :
    byteLength cs = cs.length := by
  induction cs with
  | nil => rfl
  | cons c cs ih =>
      rw [List.forall_mem_cons] at hPass
      show c.utf8Size + byteLength cs = cs.length + 1
      rw [test.utf8Size_eq c hPass.1, ih hPass.2, Nat.add_comm]

/-- The byte at the end of the front of a text passes when the next character does. -/
theorem any_getElem? (front rest : List Char) :
    (utf8 (front ++ rest))[byteLength front]?.any onBytes = rest.head?.any onChars := by
  rw [getElem?_utf8_append]
  cases rest with
  | nil => rfl
  | cons c rest =>
      obtain ⟨b, bytes, hBytes⟩ := List.exists_cons_of_ne_nil (utf8EncodeChar_ne_nil c)
      have hFirst := (test.all_utf8EncodeChar c).2
      rw [hBytes] at hFirst
      rw [utf8_cons, hBytes]
      exact hFirst

end AsciiTest

/-- Goes on from a byte for as long as the bytes pass. -/
def skip (onBytes : UInt8 → Bool) (bytes : List UInt8) (i : Nat) : Nat :=
  if bytes[i]?.any onBytes then skip onBytes bytes (i + 1) else i
termination_by bytes.length - i
decreasing_by
  have hInside : i < bytes.length := by
    by_contra hPast
    simp_all
  omega

namespace AsciiTest

variable {onBytes : UInt8 → Bool} {onChars : Char → Bool} (test : AsciiTest onBytes onChars)
include test

/-- Going on by the byte stops where going on by the character stops. -/
theorem skip_eq (front rest : List Char) :
    skip onBytes (utf8 (front ++ rest)) (byteLength front) =
      byteLength (front ++ rest.takeWhile onChars) := by
  induction rest generalizing front with
  | nil =>
      rw [skip, test.any_getElem?]
      simp
  | cons c rest ih =>
      rw [skip, test.any_getElem?, List.head?_cons, Option.any_some, List.takeWhile_cons]
      split
      · rename_i hPass
        have hNext : byteLength front + 1 = byteLength (front ++ [c]) := by
          rw [byteLength_append]
          show _ = _ + c.utf8Size
          rw [test.utf8Size_eq c hPass]
        have hRest := ih (front ++ [c])
        rwa [List.append_assoc, List.append_assoc, ← hNext] at hRest
      · rw [List.append_nil]

/-- A byte that passes is a character of the text. -/
theorem exists_of_getElem? {cs : List Char} {i : Nat} {b : UInt8}
    (hByte : (utf8 cs)[i]? = some b) (hPass : onBytes b = true) :
    ∃ front c rest, cs = front ++ c :: rest ∧ byteLength front = i ∧ onChars c = true := by
  induction cs generalizing i with
  | nil => cases hByte
  | cons c cs ih =>
      rw [utf8_cons] at hByte
      rcases Nat.lt_or_ge i c.utf8Size with hInside | hPast
      · rw [List.getElem?_append_left (by rwa [String.length_utf8EncodeChar])] at hByte
        have hMem := List.mem_of_getElem? hByte
        have hSize : c.utf8Size = 1 := by
          by_contra hWide
          rw [test.onBytes_eq_false hWide hMem] at hPass
          cases hPass
        have hChar : b = c.toUInt8 := by
          rw [String.utf8EncodeChar_eq_singleton hSize] at hMem
          exact List.mem_singleton.mp hMem
        refine ⟨[], c, cs, rfl, ?_, ?_⟩
        · show 0 = i
          omega
        · rw [← test.agree c hSize, ← hChar, hPass]
      · rw [List.getElem?_append_right (by rwa [String.length_utf8EncodeChar]),
          String.length_utf8EncodeChar] at hByte
        obtain ⟨front, d, rest, rfl, hLength, hFound⟩ := ih hByte
        refine ⟨c :: front, d, rest, rfl, ?_, hFound⟩
        show c.utf8Size + byteLength front = i
        omega

end AsciiTest

/-! ## Digits -/

/-- A decimal digit. -/
def isDigitByte (b : UInt8) : Bool := '0'.toUInt8 ≤ b && b ≤ '9'.toUInt8

/-- A decimal digit, or a letter from `a` to `f` in either case. -/
def isHexDigitByte (b : UInt8) : Bool :=
  isDigitByte b || ('a'.toUInt8 ≤ b && b ≤ 'f'.toUInt8) || ('A'.toUInt8 ≤ b && b ≤ 'F'.toUInt8)

theorem asciiTest_isDigit : AsciiTest isDigitByte Char.isDigit := .between rfl rfl

theorem asciiTest_isHexDigit : AsciiTest isHexDigitByte isHexDigit :=
  (asciiTest_isDigit.or (.between rfl rfl)).or (.between rfl rfl)

end NoteSheet
