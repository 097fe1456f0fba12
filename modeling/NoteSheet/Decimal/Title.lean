import NoteSheet.Decimal

/-!
# Numbers in titles

The number of a title is the longest decimal at its front. Blanks before it are
skipped, and whatever follows it is ignored: `" 12.5 kg"` reads as `12.5`. The
decimal is

    [+-]? (digits [. digits*] | . digits) ([eE] [+-]? digits)?

and `Infinity`, with a sign or without, is read as well. A title with neither at
its front is not a number.
-/

namespace NoteSheet

/-- The characters with the Unicode property `White_Space`. -/
def isBlank (c : Char) : Bool :=
  let n := c.toNat
  (0x09 ≤ n && n ≤ 0x0D) || n == 0x20 || n == 0x85 || n == 0xA0 || n == 0x1680 ||
    (0x2000 ≤ n && n ≤ 0x200A) || n == 0x2028 || n == 0x2029 || n == 0x202F ||
    n == 0x205F || n == 0x3000

namespace Title

/-- Takes a sign off the front; `true` stands for minus. -/
def sign : List Char → Bool × List Char
  | '-' :: rest => (true, rest)
  | '+' :: rest => (false, rest)
  | rest => (false, rest)

/-- The digits after a decimal point at the front, if there is one, and the rest. -/
def fraction : List Char → List Char × List Char
  | '.' :: rest => (rest.takeWhile Char.isDigit, rest.dropWhile Char.isDigit)
  | rest => ([], rest)

/-- The power of ten at the front. An exponent mark without digits does not count. -/
def scale : List Char → Int
  | 'e' :: rest | 'E' :: rest =>
      let (negative, rest) := sign rest
      let power := (Decimal.ofDigits (rest.takeWhile Char.isDigit) : Int)
      if negative then -power else power
  | _ => 0

/-- The number at the front of a text that has no sign. -/
def magnitude (cs : List Char) : Float :=
  if "Infinity".toList.isPrefixOf cs then Number.infinity
  else
    let whole := cs.takeWhile Char.isDigit
    let (part, rest) := fraction (cs.dropWhile Char.isDigit)
    if whole.isEmpty && part.isEmpty then Number.nan
    else (Decimal.ofParts whole part (scale rest)).toFloat

/-- The number at the front of a title. -/
def number (title : String) : Float :=
  let (negative, rest) := sign (title.toList.dropWhile isBlank)
  let value := magnitude rest
  if negative then -value else value

end Title

end NoteSheet
