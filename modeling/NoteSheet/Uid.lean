import NoteSheet.Error

/-!
# Item identifiers

An identifier is 32 hexadecimal digits. Digits of either case are accepted and
the case is kept, so `a` and `A` name different items. The width and the digits
are part of the type: every identifier that exists is well formed.

Numbered identifiers (`Uid.ofNat`) write the number in base sixteen, lower case,
padded with zeros to the full width.
-/

namespace NoteSheet

/-- A decimal digit, or a letter from `a` to `f` in either case. -/
def isHexDigit (c : Char) : Bool :=
  c.isDigit || ('a' ≤ c && c ≤ 'f') || ('A' ≤ c && c ≤ 'F')

/-- The number of digits in an identifier. -/
abbrev Uid.width : Nat := 32

/-- A stable item identifier. -/
structure Uid where
  /-- The digits, most significant first, as they were written. -/
  digits : List Char
  width_eq : digits.length = Uid.width
  hex : digits.all isHexDigit = true
deriving DecidableEq

namespace Uid

/-- The identifier as text. -/
def text (id : Uid) : String := String.ofList id.digits

/-- Reads an identifier from exactly its digits. -/
def ofDigits? (digits : List Char) : Option Uid :=
  if h : digits.length = width ∧ digits.all isHexDigit = true then
    some ⟨digits, h.1, h.2⟩
  else none

/-- Reads an identifier; anything but 32 hexadecimal digits is refused. -/
def parse (text : String) : Except Error Uid :=
  match ofDigits? text.toList with
  | some id => .ok id
  | none => .error (.invalidUid text)

/-- The identifier whose digits are all zero. -/
def empty : Uid := ⟨List.replicate width '0', by decide, by decide⟩

/-- Whether this is the identifier whose digits are all zero. -/
def isEmpty (id : Uid) : Bool := id == empty

/-- The hexadecimal digit of `n` that stands for `16 ^ place`. -/
def digitAt (n place : Nat) : Char := Nat.digitChar (n / Nat.pow 16 place % 16)

theorem isHexDigit_digitChar : ∀ k < 16, isHexDigit (Nat.digitChar k) = true := by
  decide

theorem isHexDigit_digitAt (n place : Nat) : isHexDigit (digitAt n place) = true :=
  isHexDigit_digitChar _ (Nat.mod_lt _ (by decide))

/-- The identifier numbered `n`; numbers count modulo `2 ^ 128`. -/
def ofNat (n : Nat) : Uid where
  digits := (List.range width).map fun i => digitAt n (width - 1 - i)
  width_eq := by simp
  hex := by simp [List.all_eq_true, isHexDigit_digitAt]

@[simp] theorem ofDigits?_digits (id : Uid) : ofDigits? id.digits = some id := by
  simp [ofDigits?, id.width_eq, id.hex]

theorem digits_of_ofDigits? {cs : List Char} {id : Uid} (h : ofDigits? cs = some id) :
    id.digits = cs := by
  unfold ofDigits? at h
  split at h
  · cases h
    rfl
  · cases h

@[simp] theorem parse_text (id : Uid) : parse id.text = .ok id := by
  simp [parse, text]

end Uid

end NoteSheet
