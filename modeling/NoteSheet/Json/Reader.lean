import NoteSheet.Json

/-!
# Reading JSON texts

A text is one value with blanks around it. There is no limit on nesting, no
trailing comma, and no control character inside a text. Every reader returns the
characters it left over, with a proof that they are fewer.
-/

namespace NoteSheet.Json

/-- The blanks between the parts of a value. -/
def isBlankChar (c : Char) : Bool := c == ' ' || c == '\t' || c == '\n' || c == '\r'

/-- What a reader made of the front of `cs`, and the characters that follow it. -/
structure Read (α : Type) (cs : List Char) where
  value : α
  rest : List Char
  rest_lt : rest.length < cs.length

/-- What follows the blanks at the front of a text. -/
structure Trimmed (cs : List Char) where
  rest : List Char
  rest_le : rest.length ≤ cs.length

/-- Skips blanks. -/
def trim (cs : List Char) : Trimmed cs :=
  ⟨cs.dropWhile isBlankChar, (List.dropWhile_suffix isBlankChar).length_le⟩

/-- The first character after any blanks, and what follows it. -/
structure Next (cs : List Char) where
  char : Char
  rest : List Char
  rest_lt : rest.length < cs.length

/-- Takes the first character after any blanks. -/
def next? (cs : List Char) : Option (Next cs) :=
  match trim cs with
  | ⟨[], _⟩ => none
  | ⟨c :: rest, hRest⟩ => some ⟨c, rest, hRest⟩

/-! ## Texts -/

/-- The value of a hexadecimal digit. -/
def hexValue? (c : Char) : Option Nat :=
  if c.isDigit then some (c.toNat - '0'.toNat)
  else if 'a' ≤ c && c ≤ 'f' then some (c.toNat - 'a'.toNat + 10)
  else if 'A' ≤ c && c ≤ 'F' then some (c.toNat - 'A'.toNat + 10)
  else none

/-- The unit that four hexadecimal digits spell. -/
def hexUnit? (a b c d : Char) : Option Nat := do
  let a ← hexValue? a
  let b ← hexValue? b
  let c ← hexValue? c
  let d ← hexValue? d
  return ((a * 16 + b) * 16 + c) * 16 + d

/-- Whether a unit is the first half of a surrogate pair. -/
def isHighHalf (unit : Nat) : Bool := 0xD800 ≤ unit && unit ≤ 0xDBFF

/-- Whether a unit is the second half of a surrogate pair. -/
def isLowHalf (unit : Nat) : Bool := 0xDC00 ≤ unit && unit ≤ 0xDFFF

/-- The character of a surrogate pair. -/
def pairChar (high low : Nat) : Char :=
  Char.ofNat (0x10000 + (high - 0xD800) * 0x400 + (low - 0xDC00))

/-- The character of an escape of one letter. -/
def escapedChar? (c : Char) : Option Char :=
  match c with
  | '"' => some '"'
  | '\\' => some '\\'
  | '/' => some '/'
  | 'b' => some '\x08'
  | 'f' => some '\x0c'
  | 'n' => some '\n'
  | 'r' => some '\r'
  | 't' => some '\t'
  | _ => none

/-- A part of a text: a character, or a unit spelled by an escape. -/
inductive TextPart where
  | char (c : Char)
  | unit (value : Nat)

/-- The parts of a text after its opening quote, and what follows its closing quote. -/
def splitText? : List Char → Option (List TextPart × List Char)
  | '"' :: rest => some ([], rest)
  | '\\' :: 'u' :: a :: b :: c :: d :: rest => do
      let unit ← hexUnit? a b c d
      let (parts, after) ← splitText? rest
      return (.unit unit :: parts, after)
  | '\\' :: c :: rest => do
      let escaped ← escapedChar? c
      let (parts, after) ← splitText? rest
      return (.char escaped :: parts, after)
  | c :: rest =>
      if c.toNat < 0x20 || c == '\\' then none
      else do
        let (parts, after) ← splitText? rest
        return (.char c :: parts, after)
  | [] => none

theorem length_of_splitText? {cs after : List Char} {parts : List TextPart}
    (h : splitText? cs = some (parts, after)) : after.length < cs.length := by
  fun_induction splitText? cs generalizing parts with
  | case1 rest =>
      cases h
      simp
  | case2 a b c d rest ih =>
      simp only [Option.bind_eq_bind, Option.bind_eq_some_iff] at h
      obtain ⟨_, _, ⟨_, _⟩, hRest, hPure⟩ := h
      cases hPure
      have hShorter := ih hRest
      simp only [List.length_cons] at hShorter ⊢
      omega
  | case3 c rest _ ih =>
      simp only [Option.bind_eq_bind, Option.bind_eq_some_iff] at h
      obtain ⟨_, _, ⟨_, _⟩, hRest, hPure⟩ := h
      cases hPure
      have hShorter := ih hRest
      simp only [List.length_cons] at hShorter ⊢
      omega
  | case4 => cases h
  | case5 c rest _ _ _ _ ih =>
      simp only [Option.bind_eq_bind, Option.bind_eq_some_iff] at h
      obtain ⟨⟨_, _⟩, hRest, hPure⟩ := h
      cases hPure
      have hShorter := ih hRest
      simp only [List.length_cons] at hShorter ⊢
      omega
  | case6 => cases h

/-- The characters that the parts of a text stand for; none if half of a surrogate
pair stands alone. -/
def joinParts? : List TextPart → Option (List Char)
  | [] => some []
  | .char c :: rest => (joinParts? rest).map (c :: ·)
  | .unit high :: .unit low :: rest =>
      if isHighHalf high then
        if isLowHalf low then (joinParts? rest).map (pairChar high low :: ·) else none
      else if isLowHalf high then none
      else (joinParts? (.unit low :: rest)).map (Char.ofNat high :: ·)
  | .unit unit :: rest =>
      if isHighHalf unit || isLowHalf unit then none
      else (joinParts? rest).map (Char.ofNat unit :: ·)

/-- Reads a text after its opening quote. -/
def readText? (cs : List Char) : Option (Read (Option String) cs) :=
  match hSplit : splitText? cs with
  | none => none
  | some (parts, after) =>
      some ⟨(joinParts? parts).map String.ofList, after, length_of_splitText? hSplit⟩

/-! ## Numbers -/

/-- The digits after a point at the front, and what follows them. -/
def splitFraction? : List Char → Option (List Char × List Char)
  | '.' :: rest =>
      let digits := rest.takeWhile Char.isDigit
      if digits.isEmpty then none else some (digits, rest.dropWhile Char.isDigit)
  | rest => some ([], rest)

/-- Takes a sign off the front; `true` stands for minus. -/
def splitSign : List Char → Bool × List Char
  | '-' :: rest => (true, rest)
  | '+' :: rest => (false, rest)
  | rest => (false, rest)

/-- The power of ten at the front, and what follows it. -/
def splitPower? : List Char → Option (Int × List Char)
  | mark :: rest =>
      if mark == 'e' || mark == 'E' then
        let (negative, unsigned) := splitSign rest
        let digits := unsigned.takeWhile Char.isDigit
        let size := (Nat.ofDigitChars 10 digits 0 : Int)
        if digits.isEmpty then none
        else some (if negative then -size else size, unsigned.dropWhile Char.isDigit)
      else some (0, mark :: rest)
  | [] => some (0, [])

/-- The number at the front after its sign, and what follows it. A whole part of
several digits does not begin with zero. -/
def splitNumber? (negative : Bool) (cs : List Char) : Option (Number × List Char) :=
  match cs.takeWhile Char.isDigit with
  | [] => none
  | first :: others =>
      if first == '0' && !others.isEmpty then none
      else do
        let (fraction, rest) ← splitFraction? (cs.dropWhile Char.isDigit)
        let (power, after) ← splitPower? rest
        return (⟨negative, first :: others, fraction, power⟩, after)

theorem length_dropDigits_le (cs : List Char) :
    (cs.dropWhile Char.isDigit).length ≤ cs.length :=
  (List.dropWhile_suffix Char.isDigit).length_le

theorem length_of_splitFraction? {cs digits after : List Char}
    (h : splitFraction? cs = some (digits, after)) : after.length ≤ cs.length := by
  unfold splitFraction? at h
  split at h
  · rename_i rest
    have hLength := length_dropDigits_le rest
    dsimp only at h
    split at h
    · cases h
    · cases h
      simp only [List.length_cons]
      omega
  · cases h
    exact Nat.le_refl _

theorem length_splitSign_le (cs : List Char) : (splitSign cs).2.length ≤ cs.length := by
  unfold splitSign
  split <;> simp

theorem length_of_splitPower? {cs after : List Char} {power : Int}
    (h : splitPower? cs = some (power, after)) : after.length ≤ cs.length := by
  unfold splitPower? at h
  split at h
  · rename_i mark rest
    have hSign := length_splitSign_le rest
    have hLength := length_dropDigits_le (splitSign rest).2
    dsimp only at h
    split at h
    · split at h
      · cases h
      · cases h
        simp only [List.length_cons]
        omega
    · cases h
      exact Nat.le_refl _
  · cases h
    exact Nat.le_refl _

theorem length_of_splitNumber? {negative : Bool} {cs after : List Char} {n : Number}
    (h : splitNumber? negative cs = some (n, after)) : after.length < cs.length := by
  unfold splitNumber? at h
  split at h
  · cases h
  · rename_i first others hDigits
    split at h
    · cases h
    · simp only [Option.bind_eq_bind, Option.bind_eq_some_iff] at h
      obtain ⟨⟨_, rest⟩, hFraction, ⟨_, _⟩, hPower, hPure⟩ := h
      cases hPure
      have hAll := congrArg List.length
        (List.takeWhile_append_dropWhile (p := Char.isDigit) (l := cs))
      rw [hDigits, List.length_append, List.length_cons] at hAll
      have hFractionLength := length_of_splitFraction? hFraction
      have hPowerLength := length_of_splitPower? hPower
      simp only at hPowerLength ⊢
      omega

/-- Reads a number after its sign. -/
def readNumber? (negative : Bool) (cs : List Char) : Option (Read Value cs) :=
  match hSplit : splitNumber? negative cs with
  | none => none
  | some (n, after) => some ⟨.number n, after, length_of_splitNumber? hSplit⟩

/-! ## Values -/

/-- Reads a fixed word. -/
def readWord? (word : String) (value : Value) (cs : List Char) : Option (Read Value cs) :=
  if hWord : word.toList <+: cs ∧ word.toList ≠ [] then
    some ⟨value, cs.drop word.toList.length, by
      have hPos := List.length_pos_iff.mpr hWord.2
      have hLength := hWord.1.length_le
      rw [List.length_drop]
      omega⟩
  else none

/-- Reads a fixed word or a number without a sign. -/
def readPlain? (cs : List Char) : Option (Read Value cs) :=
  (readWord? "null" .null cs).or
    ((readWord? "true" (.bool true) cs).or
      ((readWord? "false" (.bool false) cs).or (readNumber? false cs)))

mutual

/-- Reads a value, after any blanks. -/
def readValue? (cs : List Char) : Option (Read Value cs) := do
  let next ← next? cs
  match next.char with
  | '"' =>
      let text ← readText? next.rest
      return ⟨.text text.value, text.rest, Nat.lt_trans text.rest_lt next.rest_lt⟩
  | '[' =>
      let elements ← readElements? next.rest
      return ⟨.array elements.value, elements.rest, Nat.lt_trans elements.rest_lt next.rest_lt⟩
  | '\x7b' =>
      let members ← readMembers? next.rest
      return ⟨.object members.value, members.rest, Nat.lt_trans members.rest_lt next.rest_lt⟩
  | '-' =>
      let number ← readNumber? true next.rest
      return ⟨number.value, number.rest, Nat.lt_trans number.rest_lt next.rest_lt⟩
  | _ =>
      let plain ← readPlain? (trim cs).rest
      return ⟨plain.value, plain.rest, Nat.lt_of_lt_of_le plain.rest_lt (trim cs).rest_le⟩
termination_by 3 * cs.length
decreasing_by
  all_goals
    have hNext := next.rest_lt
    omega

/-- Reads the elements of an array after its opening bracket. -/
def readElements? (cs : List Char) : Option (Read (List Value) cs) := do
  let next ← next? cs
  if next.char = ']' then return ⟨[], next.rest, next.rest_lt⟩ else readElementsFrom? cs
termination_by 3 * cs.length + 2

/-- Reads the elements of an array from one that must be there. -/
def readElementsFrom? (cs : List Char) : Option (Read (List Value) cs) := do
  let first ← readValue? cs
  let next ← next? first.rest
  have hNext := Nat.lt_trans next.rest_lt first.rest_lt
  match next.char with
  | ']' => return ⟨[first.value], next.rest, hNext⟩
  | ',' =>
      let others ← readElementsFrom? next.rest
      return ⟨first.value :: others.value, others.rest, Nat.lt_trans others.rest_lt hNext⟩
  | _ => none
termination_by 3 * cs.length + 1

/-- Reads the members of an object after its opening brace. -/
def readMembers? (cs : List Char) : Option (Read (List (Option String × Value)) cs) := do
  let next ← next? cs
  if next.char = '\x7d' then return ⟨[], next.rest, next.rest_lt⟩ else readMembersFrom? cs
termination_by 3 * cs.length + 2

/-- Reads the members of an object from one that must be there. -/
def readMembersFrom? (cs : List Char) : Option (Read (List (Option String × Value)) cs) := do
  let quote ← next? cs
  let name ← if quote.char = '"' then readText? quote.rest else none
  let colon ← next? name.rest
  have hColon := Nat.lt_trans (Nat.lt_trans colon.rest_lt name.rest_lt) quote.rest_lt
  let value ← if colon.char = ':' then readValue? colon.rest else none
  let next ← next? value.rest
  have hNext := Nat.lt_trans (Nat.lt_trans next.rest_lt value.rest_lt) hColon
  match next.char with
  | '\x7d' => return ⟨[(name.value, value.value)], next.rest, hNext⟩
  | ',' =>
      let others ← readMembersFrom? next.rest
      return ⟨(name.value, value.value) :: others.value, others.rest,
        Nat.lt_trans others.rest_lt hNext⟩
  | _ => none
termination_by 3 * cs.length + 1

end

/-- Reads a JSON text: one value with nothing but blanks around it. -/
def read? (text : String) : Option Value := do
  let value ← readValue? text.toList
  match trim value.rest with
  | ⟨[], _⟩ => return value.value
  | _ => none

end NoteSheet.Json
