import NoteSheet.Formula.Lexer

/-!
# The pieces of a text

Every piece that is cut off the front of a text is the longest one of its class: digits
with at most one point, a `$` with the word after it, a name, or a single character that
begins none of these. `IsPiece` says so without the scanners: by the characters of the
piece, and by what comes after it.

Main statements: `IsPiece.of_cut` (what is cut off is a piece), `IsPiece.cut_eq` (a text that
begins with a piece has just that piece cut off) and `IsPiece.of_breaks` (a piece stays one
before anything that ends it).
-/

namespace NoteSheet

/-! ## Longest prefixes -/

/-- The longest prefix with some property of the text that it begins. -/
structure Longest (P : List Char → Prop) (span after : List Char) : Prop where
  holds : P span
  longest : ∀ longer, longer <+: span ++ after → P longer → longer.length ≤ span.length

namespace Longest

variable {P : List Char → Prop} {span span' after after' : List Char}

/-- A text has one longest prefix. -/
theorem unique (h : Longest P span after) (h' : Longest P span' after')
    (hText : span ++ after = span' ++ after') : span = span' ∧ after = after' := by
  have hLe : span.length ≤ span'.length :=
    h'.longest span (hText ▸ List.prefix_append span after) h.holds
  have hGe : span'.length ≤ span.length :=
    h.longest span' (hText ▸ List.prefix_append span' after') h'.holds
  exact List.append_inj hText (Nat.le_antisymm hLe hGe)

/-- A prefix that cannot take one more character is the longest, if shortening a longer
one keeps the property. -/
theorem of_stops (hSpan : P span)
    (hShorter : ∀ front back, front ≠ [] → P (front ++ back) → P front)
    (hStops : ∀ c rest, after = c :: rest → ¬ P (span ++ [c])) : Longest P span after where
  holds := hSpan
  longest longer hPrefix hLonger := by
    rw [← Nat.not_lt]
    intro hLength
    obtain ⟨more, rfl⟩ := List.prefix_of_prefix_length_le (List.prefix_append span after)
      hPrefix (Nat.le_of_lt hLength)
    have hMore : more <+: after := (List.prefix_append_right_inj span).mp hPrefix
    cases more with
    | nil => simp at hLength
    | cons c more =>
        obtain ⟨rest, hRest⟩ := hMore
        refine hStops c (more ++ rest) hRest.symm ?_
        refine hShorter (span ++ [c]) more (by simp) ?_
        rwa [List.append_assoc, List.singleton_append]

end Longest

/-! ## The classes of pieces -/

/-- Digits with at most one point, which may stand alone. -/
structure IsNumeral (cs : List Char) : Prop where
  ne_nil : cs ≠ []
  chars : ∀ c ∈ cs, c.isDigit = true ∨ c = '.'
  points : cs.count '.' ≤ 1

/-- Letters, digits and underscores. -/
def IsWord (cs : List Char) : Prop := ∀ c ∈ cs, c.isAlpha = true ∨ c.isDigit = true ∨ c = '_'

/-- A `$` and a word, which may be empty. -/
def IsDollarWord (cs : List Char) : Prop := ∃ word, cs = '$' :: word ∧ IsWord word

/-- A word that begins with a letter. -/
def IsName (cs : List Char) : Prop := IsWord cs ∧ ∃ c word, cs = c :: word ∧ c.isAlpha = true

/-- A direction letter in either case, followed by one or more digits. -/
def IsStepsWord (word : List Char) : Prop :=
  ∃ letter steps, word = letter :: steps ∧ letter ∈ ['L', 'R', 'U', 'D', 'l', 'r', 'u', 'd'] ∧
    steps ≠ [] ∧ ∀ c ∈ steps, c.isDigit = true

/-- The kind of a `$` with a word after it. -/
inductive ReferenceKind (word : List Char) : TokenKind → Prop
  | absolute (wide : word.length = 32) (hex : ∀ c ∈ word, isHexDigit c = true) :
      ReferenceKind word .absoluteRef
  | malformed (wide : word.length = 32) (hex : ¬ ∀ c ∈ word, isHexDigit c = true) :
      ReferenceKind word .illegal
  | relative (wide : word.length ≠ 32) (steps : IsStepsWord word) :
      ReferenceKind word .relativeRef
  | variable (wide : word.length ≠ 32) (steps : ¬ IsStepsWord word)
      (named : ∃ c rest, word = c :: rest ∧ c.isAlpha = true) : ReferenceKind word .variableRef
  | unnamed (wide : word.length ≠ 32) (steps : ¬ IsStepsWord word)
      (named : ¬ ∃ c rest, word = c :: rest ∧ c.isAlpha = true) : ReferenceKind word .illegal

/-- The characters that are tokens with a kind of their own. -/
def symbols : List (Char × TokenKind) :=
  [('+', .plus), ('-', .minus), ('*', .times), ('/', .divide), ('=', .equal), (';', .semicolon),
    ('(', .leftParen), (')', .rightParen)]

/-- A piece of some kind, by its characters and by what comes after it. -/
inductive IsPiece : TokenKind → List Char → List Char → Prop
  | number {span after : List Char} (longest : Longest IsNumeral span after) :
      IsPiece .number span after
  | reference {kind : TokenKind} {word after : List Char}
      (longest : Longest IsDollarWord ('$' :: word) after) (kinded : ReferenceKind word kind) :
      IsPiece kind ('$' :: word) after
  | identifier {span after : List Char} (longest : Longest IsName span after) :
      IsPiece .identifier span after
  | single {kind : TokenKind} {c : Char} {after : List Char}
      (number : ¬ (c.isDigit = true ∨ c = '.')) (dollar : c ≠ '$') (letter : ¬ c.isAlpha = true)
      (spacing : c ∉ [' ', '\t', '\r', '\n'])
      (kinded : kind = (symbols.lookup c).getD .illegal) : IsPiece kind [c] after

/-! ## Kinds -/

theorem isSpacing_iff {c : Char} : isSpacing c = true ↔ c ∈ [' ', '\t', '\r', '\n'] := by
  simp [isSpacing, or_assoc]

theorem isWordChar_iff {c : Char} :
    isWordChar c = true ↔ c.isAlpha = true ∨ c.isDigit = true ∨ c = '_' := by
  simp [isWordChar, Char.isAlphanum, or_assoc]

/-- The letter of a direction is the upper case of itself and of its lower case only. -/
theorem Direction.eq_or_eq_of_letter_eq_toUpper {c : Char} {direction : Direction}
    (h : direction.letter = c.toUpper) : c = direction.letter ∨ c = direction.letter.toLower := by
  unfold Char.toUpper at h
  split at h
  · rename_i hLower
    obtain ⟨hLeast, hMost⟩ := hLower
    rw [UInt32.le_iff_toNat_le] at hLeast hMost
    have hA : 'a'.val.toNat = 97 := rfl
    have hZ : 'z'.val.toNat = 122 := rfl
    right
    cases direction <;> simp [letter, Char.ext_iff, ← UInt32.toNat_inj] at * <;> omega
  · exact Or.inl h.symm

/-- The letters that name directions. -/
theorem Direction.ofLetter?_isSome_iff {c : Char} :
    (ofLetter? c).isSome = true ↔ c ∈ ['L', 'R', 'U', 'D', 'l', 'r', 'u', 'd'] := by
  constructor
  · intro h
    obtain ⟨direction, hDirection⟩ := Option.isSome_iff_exists.mp h
    have hLetter : direction.letter = c.toUpper := by simpa using List.find?_some hDirection
    rcases eq_or_eq_of_letter_eq_toUpper hLetter with rfl | rfl <;> cases direction <;> decide
  · intro h
    have hAll : ['L', 'R', 'U', 'D', 'l', 'r', 'u', 'd'].all (fun c => (ofLetter? c).isSome) =
        true := by decide
    exact List.all_eq_true.mp hAll c h

theorem isSteps_iff {word : List Char} : isSteps word = true ↔ IsStepsWord word := by
  cases word with
  | nil => simp [isSteps, IsStepsWord]
  | cons letter steps =>
      simp [isSteps, IsStepsWord, Direction.ofLetter?_isSome_iff, and_assoc]

theorem any_isAlpha_head?_iff {word : List Char} :
    word.head?.any Char.isAlpha = true ↔ ∃ c rest, word = c :: rest ∧ c.isAlpha = true := by
  cases word <;> simp

/-- A word has one kind. -/
theorem referenceKind_iff {word : List Char} {kind : TokenKind} :
    ReferenceKind word kind ↔ kind = referenceKind word := by
  constructor
  · intro h
    unfold referenceKind
    cases h with
    | absolute wide hex => rw [if_pos wide, if_pos (List.all_eq_true.mpr hex)]
    | malformed wide hex => rw [if_pos wide, if_neg (mt List.all_eq_true.mp hex)]
    | relative wide steps => rw [if_neg wide, if_pos (isSteps_iff.mpr steps)]
    | «variable» wide steps named =>
        rw [if_neg wide, if_neg (mt isSteps_iff.mp steps),
          if_pos (any_isAlpha_head?_iff.mpr named)]
    | unnamed wide steps named =>
        rw [if_neg wide, if_neg (mt isSteps_iff.mp steps),
          if_neg (mt any_isAlpha_head?_iff.mp named)]
  · rintro rfl
    unfold referenceKind
    split
    · rename_i hWide
      split
      · rename_i hHex
        exact .absolute hWide (List.all_eq_true.mp hHex)
      · rename_i hHex
        exact .malformed hWide (mt List.all_eq_true.mpr hHex)
    · rename_i hWide
      split
      · rename_i hSteps
        exact .relative hWide (isSteps_iff.mp hSteps)
      · rename_i hSteps
        have hSteps := mt isSteps_iff.mpr hSteps
        split
        · rename_i hNamed
          exact .variable hWide hSteps (any_isAlpha_head?_iff.mp hNamed)
        · rename_i hNamed
          exact .unnamed hWide hSteps (mt any_isAlpha_head?_iff.mpr hNamed)

/-- A character that is not listed is illegal. -/
theorem symbolKind_eq (c : Char) : symbolKind c = (symbols.lookup c).getD .illegal := by
  by_cases hListed : c ∈ symbols.map Prod.fst
  · have hAll : (symbols.map Prod.fst).all
        (fun c => symbolKind c == (symbols.lookup c).getD .illegal) = true := by decide
    exact eq_of_beq (List.all_eq_true.mp hAll c hListed)
  · have hNone : symbols.lookup c = none := by
      rw [List.lookup_eq_none_iff]
      simpa [symbols] using hListed
    rw [hNone]
    simp [symbols] at hListed
    simp [symbolKind, hListed]

/-- A character that is a token of its own is a symbol or illegal. -/
theorem mem_of_symbol_kind {c : Char} {kind : TokenKind}
    (h : kind = (symbols.lookup c).getD .illegal) : kind ∈ .illegal :: symbols.map Prod.snd := by
  rw [← symbolKind_eq] at h
  subst h
  unfold symbolKind
  split <;> decide

/-! ## Numbers -/

theorem IsNumeral.of_append {front back : List Char} (h : IsNumeral (front ++ back))
    (hFront : front ≠ []) : IsNumeral front where
  ne_nil := hFront
  chars c hMem := h.chars c (List.mem_append_left back hMem)
  points := Nat.le_trans (List.Sublist.count_le '.' (List.sublist_append_left front back)) h.points

/-- What a number can take: a digit, or a first point. -/
theorem IsNumeral.concat_iff {front : List Char} (h : IsNumeral front) {c : Char} :
    IsNumeral (front ++ [c]) ↔ c.isDigit = true ∨ (c = '.' ∧ '.' ∉ front) := by
  constructor
  · intro hMore
    rcases hMore.chars c (by simp) with hDigit | rfl
    · exact Or.inl hDigit
    · have hPoints := hMore.points
      rw [List.count_append, List.count_singleton_self] at hPoints
      exact Or.inr ⟨rfl, List.count_eq_zero.mp (by omega)⟩
  · intro hChar
    refine ⟨by simp, ?_, ?_⟩
    · intro d hMem
      rcases List.mem_append.mp hMem with hMem | hMem
      · exact h.chars d hMem
      · obtain rfl := List.mem_singleton.mp hMem
        exact hChar.imp_right And.left
    · rw [List.count_append]
      rcases hChar with hDigit | ⟨rfl, hNone⟩
      · have hOther : c ≠ '.' := by
          rintro rfl
          cases hDigit
        rw [List.count_singleton, if_neg (by simpa using hOther)]
        exact h.points
      · rw [List.count_eq_zero.mpr hNone]
        decide

/-- A digit or a point is a number. -/
theorem isNumeral_singleton {c : Char} (h : c.isDigit = true ∨ c = '.') : IsNumeral [c] where
  ne_nil := by simp
  chars d hMem := List.mem_singleton.mp hMem ▸ h
  points := List.count_le_length

/-- The run of digits and points goes on to the first character that a number cannot take. -/
theorem longest_spanNumber {front : List Char} {pointSeen : Bool} (cs : List Char)
    (hFront : IsNumeral front) (hPoint : '.' ∈ front ↔ pointSeen = true) :
    Longest IsNumeral (front ++ (spanNumber pointSeen cs).1) (spanNumber pointSeen cs).2 := by
  induction cs generalizing front pointSeen with
  | nil =>
      rw [spanNumber, List.append_nil]
      exact .of_stops hFront (fun _ _ hNe h => h.of_append hNe) (by simp)
  | cons c cs ih =>
      unfold spanNumber
      by_cases hDigit : c.isDigit = true
      · rw [if_pos hDigit]
        have hNext := hFront.concat_iff.mpr (Or.inl hDigit)
        have hOther : '.' ≠ c := by
          rintro rfl
          cases hDigit
        have hLongest := ih hNext (by simpa [hOther] using hPoint)
        rwa [List.append_assoc] at hLongest
      · rw [if_neg hDigit]
        by_cases hTaken : (c == '.' && !pointSeen) = true
        · rw [if_pos hTaken]
          obtain ⟨rfl, rfl⟩ : c = '.' ∧ pointSeen = false := by simpa using hTaken
          have hNext := hFront.concat_iff.mpr (Or.inr ⟨rfl, by simpa using hPoint⟩)
          have hLongest : Longest IsNumeral (front ++ ['.'] ++ (spanNumber true cs).1)
              (spanNumber true cs).2 := ih hNext (by simp)
          rwa [List.append_assoc] at hLongest
        · rw [if_neg hTaken, List.append_nil]
          refine .of_stops hFront (fun _ _ hNe h => h.of_append hNe) ?_
          intro d rest hRest hMore
          obtain ⟨rfl, -⟩ := List.cons.inj hRest
          rcases hFront.concat_iff.mp hMore with hMore | ⟨rfl, hNone⟩
          · exact hDigit hMore
          · rw [hPoint, Bool.not_eq_true] at hNone
            simp [hNone] at hTaken

/-! ## Words -/

theorem isWord_takeWhile (cs : List Char) : IsWord (cs.takeWhile isWordChar) :=
  fun _ hMem => isWordChar_iff.mp (List.all_eq_true.mp List.all_takeWhile _ hMem)

/-- The character at which a word ends cannot belong to it. -/
theorem not_isWordChar_of_dropWhile {cs rest : List Char} {c : Char}
    (h : cs.dropWhile isWordChar = c :: rest) :
    ¬ (c.isAlpha = true ∨ c.isDigit = true ∨ c = '_') := by
  have hHead := List.head?_dropWhile_not isWordChar cs
  rw [h] at hHead
  rw [← isWordChar_iff]
  simpa using hHead

theorem longest_dollarWord (cs : List Char) :
    Longest IsDollarWord ('$' :: cs.takeWhile isWordChar) (cs.dropWhile isWordChar) := by
  refine .of_stops ⟨_, rfl, isWord_takeWhile cs⟩ ?_ ?_
  · rintro front back hFront ⟨word, hWord, hChars⟩
    cases front with
    | nil => exact absurd rfl hFront
    | cons c front =>
        obtain ⟨rfl, rfl⟩ := List.cons.inj hWord
        exact ⟨front, rfl, fun d hMem => hChars d (List.mem_append_left back hMem)⟩
  · rintro c rest hRest ⟨word, hWord, hChars⟩
    obtain ⟨-, rfl⟩ := List.cons.inj hWord
    exact not_isWordChar_of_dropWhile hRest (hChars c (by simp))

theorem longest_name {c : Char} (hLetter : c.isAlpha = true) (cs : List Char) :
    Longest IsName (c :: cs.takeWhile isWordChar) (cs.dropWhile isWordChar) := by
  refine .of_stops ⟨?_, c, _, rfl, hLetter⟩ ?_ ?_
  · intro d hMem
    rcases List.mem_cons.mp hMem with rfl | hMem
    · exact Or.inl hLetter
    · exact isWord_takeWhile cs d hMem
  · rintro front back hFront ⟨hChars, d, word, hWord, hHead⟩
    cases front with
    | nil => exact absurd rfl hFront
    | cons e front =>
        obtain ⟨rfl, rfl⟩ := List.cons.inj hWord
        exact ⟨fun d hMem => hChars d (List.mem_append_left back hMem), e, front, rfl, hHead⟩
  · rintro d rest hRest ⟨hChars, -⟩
    exact not_isWordChar_of_dropWhile hRest (hChars d (by simp))

/-- The codes of letters. -/
theorem isAlpha_iff {c : Char} :
    c.isAlpha = true ↔ 65 ≤ c.toNat ∧ c.toNat ≤ 90 ∨ 97 ≤ c.toNat ∧ c.toNat ≤ 122 := by
  show (decide (c.val ≥ 'A'.val ∧ c.val ≤ 'Z'.val) ||
    (decide (c.val ≥ 'a'.val) && decide (c.val ≤ 'z'.val))) = true ↔ _
  simp only [Bool.or_eq_true, Bool.and_eq_true, decide_eq_true_eq, ge_iff_le,
    UInt32.le_iff_toNat_le]
  rfl

/-- Hexadecimal digits are characters of words. -/
theorem isWordChar_of_isHexDigit {c : Char} (h : isHexDigit c = true) : isWordChar c = true := by
  simp only [isHexDigit, Bool.or_eq_true, Bool.and_eq_true, decide_eq_true_eq, Char.le_def,
    UInt32.le_iff_toNat_le] at h
  rw [isWordChar_iff, isAlpha_iff]
  rcases h with (hDigit | hLower) | hUpper
  · exact Or.inr (Or.inl hDigit)
  · have hBounds : 97 ≤ c.toNat ∧ c.toNat ≤ 102 := hLower
    omega
  · have hBounds : 65 ≤ c.toNat ∧ c.toNat ≤ 70 := hUpper
    omega

theorem IsStepsWord.isWordChar {word : List Char} (h : IsStepsWord word) :
    ∀ c ∈ word, isWordChar c = true := by
  obtain ⟨letter, steps, rfl, hLetter, -, hDigits⟩ := h
  have hAll : ['L', 'R', 'U', 'D', 'l', 'r', 'u', 'd'].all NoteSheet.isWordChar = true := by decide
  intro c hMem
  rcases List.mem_cons.mp hMem with rfl | hMem
  · exact List.all_eq_true.mp hAll c hLetter
  · exact isWordChar_iff.mpr (Or.inr (Or.inl (hDigits c hMem)))

/-! ## What is cut off -/

theorem Piece.cut_number {c : Char} (h : c.isDigit = true ∨ c = '.') (cs : List Char) :
    Piece.cut c cs =
      ⟨.number, c :: (spanNumber (c == '.') cs).1, (spanNumber (c == '.') cs).2⟩ := by
  unfold cut
  rw [if_pos (by simpa using h)]

theorem Piece.cut_dollar (cs : List Char) :
    Piece.cut '$' cs = ⟨referenceKind (cs.takeWhile isWordChar), '$' :: cs.takeWhile isWordChar,
      cs.dropWhile isWordChar⟩ := rfl

/-- A letter begins a name and nothing else. -/
theorem not_of_isAlpha {c : Char} (h : c.isAlpha = true) :
    ¬ (c.isDigit = true ∨ c = '.') ∧ c ≠ '$' := by
  refine ⟨?_, ?_⟩
  · rintro (hDigit | rfl)
    · rw [isAlpha_iff] at h
      have hNine : c.toNat ≤ 57 := (Char.isDigit_iff_toNat.mp hDigit).2
      omega
    · cases h
  · rintro rfl
    cases h

theorem Piece.cut_letter {c : Char} (h : c.isAlpha = true) (cs : List Char) :
    Piece.cut c cs =
      ⟨.identifier, c :: cs.takeWhile isWordChar, cs.dropWhile isWordChar⟩ := by
  obtain ⟨hNumber, hDollar⟩ := not_of_isAlpha h
  unfold cut
  rw [if_neg (by simpa using hNumber), if_neg (by simpa using hDollar), if_pos h]

theorem Piece.cut_single {c : Char} (hNumber : ¬ (c.isDigit = true ∨ c = '.'))
    (hDollar : c ≠ '$') (hLetter : ¬ c.isAlpha = true) (cs : List Char) :
    Piece.cut c cs = ⟨symbolKind c, [c], cs⟩ := by
  unfold cut
  rw [if_neg (by simpa using hNumber), if_neg (by simpa using hDollar), if_neg hLetter]

/-- Spacing begins neither a number nor a name. -/
theorem isSpacing_eq_false {c : Char} (h : (c.isDigit = true ∨ c = '.') ∨ c.isAlpha = true) :
    isSpacing c = false := by
  have hAll : [' ', '\t', '\r', '\n'].all (fun c => !(c.isDigit || c == '.' || c.isAlpha)) =
      true := by decide
  rw [← Bool.not_eq_true, isSpacing_iff]
  intro hSpacing
  have hNone := List.all_eq_true.mp hAll c hSpacing
  rcases h with (h | h) | h <;> simp [h] at hNone

namespace IsPiece

theorem longest_cut_number {c : Char} (h : c.isDigit = true ∨ c = '.') (cs : List Char) :
    Longest IsNumeral (c :: (spanNumber (c == '.') cs).1) (spanNumber (c == '.') cs).2 :=
  longest_spanNumber cs (isNumeral_singleton h) (by rw [List.mem_singleton, beq_iff_eq, eq_comm])

/-- **What is cut off is a piece** of its kind. -/
theorem of_cut {c : Char} (hSpacing : isSpacing c = false) (cs : List Char) :
    IsPiece (Piece.cut c cs).kind (Piece.cut c cs).span (Piece.cut c cs).rest := by
  by_cases hNumber : c.isDigit = true ∨ c = '.'
  · rw [Piece.cut_number hNumber]
    exact .number (longest_cut_number hNumber cs)
  · by_cases hDollar : c = '$'
    · subst hDollar
      rw [Piece.cut_dollar]
      exact .reference (longest_dollarWord cs) (referenceKind_iff.mpr rfl)
    · by_cases hLetter : c.isAlpha = true
      · rw [Piece.cut_letter hLetter]
        exact .identifier (longest_name hLetter cs)
      · rw [Piece.cut_single hNumber hDollar hLetter]
        refine .single hNumber hDollar hLetter ?_ (symbolKind_eq c)
        rw [← isSpacing_iff, hSpacing]
        exact Bool.false_ne_true

variable {kind : TokenKind} {span after : List Char}

/-- **A piece is what is cut off** the text that begins with it. -/
theorem cut_eq (h : IsPiece kind span after) :
    ∃ c cs, span ++ after = c :: cs ∧ isSpacing c = false ∧
      Piece.cut c cs = ⟨kind, span, after⟩ := by
  cases h with
  | number longest =>
      cases span with
      | nil => exact absurd rfl longest.holds.ne_nil
      | cons c word =>
          have hNumber := longest.holds.chars c (by simp)
          have hSame := (longest_cut_number hNumber (word ++ after)).unique longest
            (congrArg (List.cons c) (spanNumber_append _ _))
          refine ⟨c, word ++ after, rfl, isSpacing_eq_false (Or.inl hNumber), ?_⟩
          rw [Piece.cut_number hNumber, hSame.1, hSame.2]
  | @reference _ word _ longest kinded =>
      have hSame := (longest_dollarWord (word ++ after)).unique longest
        (congrArg (List.cons '$') List.takeWhile_append_dropWhile)
      refine ⟨'$', word ++ after, rfl, rfl, ?_⟩
      rw [Piece.cut_dollar, hSame.1, hSame.2, (List.cons.inj hSame.1).2,
        referenceKind_iff.mp kinded]
  | identifier longest =>
      obtain ⟨-, c, word, rfl, hLetter⟩ := longest.holds
      have hSame := (longest_name hLetter (word ++ after)).unique longest
        (congrArg (List.cons c) List.takeWhile_append_dropWhile)
      refine ⟨c, word ++ after, rfl, isSpacing_eq_false (Or.inr hLetter), ?_⟩
      rw [Piece.cut_letter hLetter, hSame.1, hSame.2]
  | @single _ c _ number dollar letter spacing kinded =>
      refine ⟨c, after, rfl, ?_, ?_⟩
      · rw [← Bool.not_eq_true, isSpacing_iff]
        exact spacing
      · rw [Piece.cut_single number dollar letter, symbolKind_eq, kinded]

theorem of_symbol {c : Char} {kind : TokenKind} (h : (c, kind) ∈ symbols) (after : List Char) :
    IsPiece kind [c] after := by
  have hAll : ∀ entry ∈ symbols, ¬ (entry.1.isDigit = true ∨ entry.1 = '.') ∧ entry.1 ≠ '$' ∧
      ¬ entry.1.isAlpha = true ∧ entry.1 ∉ [' ', '\t', '\r', '\n'] ∧
      entry.2 = (symbols.lookup entry.1).getD .illegal := by decide
  obtain ⟨hNumber, hDollar, hLetter, hSpacing, hKind⟩ := hAll _ h
  exact .single hNumber hDollar hLetter hSpacing hKind

/-- A number is digits with at most one point. -/
theorem numeral (h : IsPiece .number span after) : IsNumeral span := by
  cases h with
  | number longest => exact longest.holds
  | reference _ kinded => cases kinded
  | single _ _ _ _ kinded => exact absurd (mem_of_symbol_kind kinded) (by decide)

/-- A reference is a `$` and a word. -/
theorem of_reference (h : IsPiece kind span after)
    (hKind : kind ∈ [TokenKind.absoluteRef, .relativeRef, .variableRef]) :
    ∃ word, span = '$' :: word ∧ ReferenceKind word kind := by
  cases h with
  | number _ => simp at hKind
  | @reference _ word _ _ kinded => exact ⟨word, rfl, kinded⟩
  | identifier _ => simp at hKind
  | single _ _ _ _ kinded =>
      have hDisjoint : ∀ kind ∈ .illegal :: symbols.map Prod.snd,
          kind ∉ [TokenKind.absoluteRef, .relativeRef, .variableRef] := by decide
      exact absurd hKind (hDisjoint kind (mem_of_symbol_kind kinded))

end IsPiece

/-! ## Where pieces end -/

/-- A number or a word before this text ends there: the text goes on with no character that
one of them could take. -/
def Breaks (after : List Char) : Prop :=
  ∀ c rest, after = c :: rest → ¬ (c.isDigit = true ∨ c = '.') ∧ isWordChar c = false

namespace Breaks

variable {word after : List Char}

theorem nil : Breaks [] := by
  intro c rest hAfter
  cases hAfter

/-- A text breaks at its first character, if that is one that breaks. -/
theorem of_mem {cs : List Char} {c : Char} (hMem : c ∈ cs) (rest : List Char)
    (hAll : cs.all (fun c => !(c.isDigit || c == '.') && !isWordChar c) = true) :
    Breaks (c :: rest) := by
  intro d after hAfter
  obtain ⟨rfl, -⟩ := List.cons.inj hAfter
  simpa using List.all_eq_true.mp hAll c hMem

theorem takeWhile_append (h : Breaks after) (hWord : ∀ c ∈ word, isWordChar c = true) :
    (word ++ after).takeWhile isWordChar = word := by
  rw [List.takeWhile_append_of_pos hWord]
  cases after with
  | nil => simp
  | cons c rest =>
      rw [List.takeWhile_cons_of_neg (by simp [(h c rest rfl).2]), List.append_nil]

theorem dropWhile_append (h : Breaks after) (hWord : ∀ c ∈ word, isWordChar c = true) :
    (word ++ after).dropWhile isWordChar = after := by
  rw [List.dropWhile_append_of_pos hWord]
  cases after with
  | nil => rfl
  | cons c rest => rw [List.dropWhile_cons_of_neg (by simp [(h c rest rfl).2])]

end Breaks

namespace IsPiece

variable {kind : TokenKind} {word after : List Char}

theorem of_numeral {literal : List Char} (h : IsNumeral literal) (hBreaks : Breaks after) :
    IsPiece .number literal after := by
  refine .number (.of_stops h (fun _ _ hNe hMore => hMore.of_append hNe) ?_)
  intro c rest hAfter hMore
  exact (hBreaks c rest hAfter).1 ((h.concat_iff.mp hMore).imp_right And.left)

theorem of_word (hWord : ∀ c ∈ word, isWordChar c = true) (hKind : ReferenceKind word kind)
    (hBreaks : Breaks after) : IsPiece kind ('$' :: word) after := by
  have hLongest := longest_dollarWord (word ++ after)
  rw [hBreaks.takeWhile_append hWord, hBreaks.dropWhile_append hWord] at hLongest
  exact .reference hLongest hKind

theorem of_name {c : Char} (hLetter : c.isAlpha = true)
    (hWord : ∀ c ∈ word, isWordChar c = true) (hBreaks : Breaks after) :
    IsPiece .identifier (c :: word) after := by
  have hLongest := longest_name hLetter (word ++ after)
  rw [hBreaks.takeWhile_append hWord, hBreaks.dropWhile_append hWord] at hLongest
  exact .identifier hLongest

/-- **A piece ends at any break**, whatever came after it before. -/
theorem of_breaks {span before : List Char} (h : IsPiece kind span before)
    (hBreaks : Breaks after) : IsPiece kind span after := by
  cases h with
  | number longest => exact .of_numeral longest.holds hBreaks
  | @reference _ word _ longest kinded =>
      obtain ⟨_, hSpan, hWord⟩ := longest.holds
      obtain ⟨-, rfl⟩ := List.cons.inj hSpan
      exact .of_word (fun c hMem => isWordChar_iff.mpr (hWord c hMem)) kinded hBreaks
  | identifier longest =>
      obtain ⟨hWord, c, word, rfl, hLetter⟩ := longest.holds
      have hRest : ∀ d ∈ word, isWordChar d = true := fun d hMem =>
        isWordChar_iff.mpr (hWord d (List.mem_cons_of_mem c hMem))
      exact .of_name hLetter hRest hBreaks
  | single number dollar letter spacing kinded =>
      exact .single number dollar letter spacing kinded

end IsPiece

end NoteSheet
