import NoteSheet.Decimal

/-!
# Shortest decimals

The shortest decimal of a double is the one with the fewest digits that reads
back as the same double, and of several such decimals the nearest one. A finite
double is a whole number times a power of two, so it has an exact decimal of
finitely many digits; the candidates with `k` digits are that decimal cut after
`k` digits and the next one above it. The search ends at the exact decimal.
-/

namespace NoteSheet.Decimal

/-- The mantissa and binary exponent of a finite double without its sign. -/
def binaryParts (x : Float) : Nat × Int :=
  let bits := x.toBits.toNat
  let fraction := bits % Nat.pow 2 52
  let power : Nat := bits / Nat.pow 2 52 % Nat.pow 2 11
  if power = 0 then (fraction, -1074) else (fraction + Nat.pow 2 52, (power : Int) - 1075)

/-- The exact decimal of a finite double without its sign. -/
def exact (x : Float) : Decimal :=
  match binaryParts x with
  | (m, .ofNat q) => ⟨m * Nat.pow 2 q, 0⟩
  | (m, .negSucc q) => ⟨m * Nat.pow 5 (q + 1), .negSucc q⟩

/-- The decimal digits of a natural number. -/
def digits (n : Nat) : List Char := Nat.toDigits 10 n

/-- Of the two neighbors of `d` without its last `drop` digits, the one that
reads back as `x`; when both do, the nearer one, and the upper one on a tie. -/
def cut? (x : Float) (d : Decimal) (drop : Nat) : Option Decimal :=
  let unit := Nat.pow 10 drop
  let below : Decimal := ⟨d.mantissa / unit, d.exponent + drop⟩
  let above : Decimal := ⟨d.mantissa / unit + 1, d.exponent + drop⟩
  match below.toFloat == x, above.toFloat == x with
  | true, true => if 2 * (d.mantissa % unit) < unit then some below else some above
  | true, false => some below
  | false, true => some above
  | false, false => none

/-- The shortest decimal of a positive finite double. -/
def shortest (x : Float) : Decimal :=
  let d := exact x
  let count := (digits d.mantissa).length
  ((List.range count).findSome? fun k => cut? x d (count - 1 - k)).getD d

end NoteSheet.Decimal
