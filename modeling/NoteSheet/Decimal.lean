/-!
# Decimals

A decimal is a natural number scaled by a power of ten. It is what digits on the
page spell; `Decimal.toFloat` is the double nearest to it, ties to even, with
zero and infinity beyond the ends of the range.
-/

namespace NoteSheet

/-- The number `mantissa * 10 ^ exponent`. -/
structure Decimal where
  mantissa : Nat
  exponent : Int
deriving DecidableEq, Repr

namespace Decimal

/-- The number that a list of decimal digits spells. -/
def ofDigits (digits : List Char) : Nat := Nat.ofDigitChars 10 digits 0

/-- The decimal spelled by digits around a decimal point, scaled by a power of ten. -/
def ofParts (whole fraction : List Char) (scale : Int) : Decimal :=
  ⟨ofDigits (whole ++ fraction), scale - fraction.length⟩

/-- The double nearest to a decimal. -/
def toFloat (d : Decimal) : Float :=
  Float.ofScientific d.mantissa (d.exponent < 0) d.exponent.natAbs

end Decimal

/-- The double that is not a number. -/
def Number.nan : Float := 0 / 0

/-- The double above all finite ones. -/
def Number.infinity : Float := 1 / 0

end NoteSheet
