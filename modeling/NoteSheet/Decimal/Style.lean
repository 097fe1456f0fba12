import NoteSheet.Decimal.Shortest

/-!
# Writing doubles

A style says how a double is written from its shortest decimal: which powers of
ten are written out in full, what follows a whole number, how an exponent is
marked, and what stands for the values that have no digits. Two styles are in
use: `Style.display` for the values shown on the page, and `Style.tree` for the
literals of a printed expression tree.
-/

namespace NoteSheet

/-- How doubles are written. -/
structure Style where
  /-- The least power of ten of a leading digit that is written out in full. -/
  least : Int
  /-- The first power of ten of a leading digit that is written with an exponent. -/
  limit : Int
  /-- What follows a whole number that is written out in full. -/
  wholeEnd : String
  /-- What stands before an exponent that is not negative. -/
  plus : String
  /-- What stands for infinity, without a sign. -/
  infinity : String
  /-- Whether negative zero keeps its sign. -/
  signedZero : Bool

namespace Style

/-- Values on the page: written out from `1e-6` up to `1e21`, whole numbers
without a point, zero without a sign. -/
def display : Style where
  least := -6
  limit := 21
  wholeEnd := ""
  plus := "+"
  infinity := "Infinity"
  signedZero := false

/-- Literals in a tree: written out from `1e-4` up to `1e16`, whole numbers
with `.0`, zero with its sign. -/
def tree : Style where
  least := -4
  limit := 16
  wholeEnd := ".0"
  plus := ""
  infinity := "inf"
  signedZero := true

/-- Digits written out in full, the leading one standing for `10 ^ power`. -/
def positional (style : Style) (ds : List Char) (power : Int) : String :=
  match power with
  | .negSucc below => "0." ++ String.ofList (List.replicate below '0' ++ ds)
  | .ofNat above =>
      let whole := ds.take (above + 1)
      let padding := List.replicate (above + 1 - ds.length) '0'
      let fraction := ds.drop (above + 1)
      String.ofList (whole ++ padding) ++
        if fraction.isEmpty then style.wholeEnd else "." ++ String.ofList fraction

/-- Digits written with one of them before the point, then the power of ten. -/
def scientific (style : Style) (ds : List Char) (power : Int) : String :=
  let fraction := ds.drop 1
  String.ofList (ds.take 1) ++
    (if fraction.isEmpty then "" else "." ++ String.ofList fraction) ++
    "e" ++ (if power < 0 then "-" else style.plus) ++ Nat.repr power.natAbs

/-- A positive finite double. -/
def writePositive (style : Style) (x : Float) : String :=
  let d := Decimal.shortest x
  let all := Decimal.digits d.mantissa
  let power := d.exponent + all.length - 1
  let ds := (all.reverse.dropWhile (· == '0')).reverse
  if style.least ≤ power && power < style.limit then style.positional ds power
  else style.scientific ds power

/-- Any double. -/
def write (style : Style) (x : Float) : String :=
  if x.isNaN then "NaN"
  else
    let sign := if x.toBits.toNat < Nat.pow 2 63 then "" else "-"
    if x.isInf then sign ++ style.infinity
    else if x == 0 then
      (if style.signedZero then sign else "") ++ "0" ++ style.wholeEnd
    else sign ++ style.writePositive x.abs

end Style

/-- The text in which a value is shown on the page. -/
def displayText (x : Float) : String := Style.display.write x

end NoteSheet
