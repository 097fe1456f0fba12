/-!
# JSON values

JSON texts as values. Numbers keep their digits, because what they stand for is
decided by the reader of the field. A text may spell half of a surrogate pair in
an escape; it then stands for no characters, and is `none` here.
-/

namespace NoteSheet.Json

/-- A number as it is written: sign, whole digits, digits after the point, and
power of ten. -/
structure Number where
  negative : Bool
  whole : List Char
  fraction : List Char
  power : Int
deriving DecidableEq

/-- A JSON value. Members of an object keep their order and may repeat a name. -/
inductive Value where
  | null
  | bool (value : Bool)
  | number (value : Number)
  | text (value : Option String)
  | array (elements : List Value)
  | object (members : List (Option String × Value))

/-! ## The doubles that numbers stand for -/

/-- The largest significand that digits are gathered into. -/
def maxSignificand : Nat := UInt64.size - 1

/-- A significand with one more digit, unless that is too large. -/
def withDigit? (significand : Nat) (digit : Char) : Option Nat :=
  let next := 10 * significand + (digit.toNat - '0'.toNat)
  if next ≤ maxSignificand then some next else none

/-- Gathers whole digits while they fit, and counts those that do not. -/
def gatherWhole (significand : Nat) : List Char → Nat × Nat
  | [] => (significand, 0)
  | digit :: rest =>
      match withDigit? significand digit with
      | some next => gatherWhole next rest
      | none => (significand, rest.length + 1)

/-- Gathers digits after the point while they fit, and counts those that do. -/
def gatherFraction (significand : Nat) : List Char → Nat × Nat
  | [] => (significand, 0)
  | digit :: rest =>
      match withDigit? significand digit with
      | some next =>
          let (result, used) := gatherFraction next rest
          (result, used + 1)
      | none => (significand, 0)

/-- The double nearest to a power of ten. -/
def tenTo (power : Nat) : Float := Float.ofScientific 1 false power

/-- The largest power of ten that a double holds. -/
def maxPower : Nat := 308

/-- `x` divided by a power of ten, in steps of at most `maxPower`. -/
def divideByTenTo (x : Float) (power : Nat) : Float :=
  if power ≤ maxPower then x / tenTo power
  else if x == 0 then x
  else divideByTenTo (x / tenTo maxPower) (power - maxPower)
termination_by power
decreasing_by
  simp only [maxPower] at *
  omega

/-- `x` multiplied by a power of ten, unless that leaves the range of doubles. -/
def multiplyByTenTo? (x : Float) (power : Nat) : Option Float :=
  if power ≤ maxPower then
    let product := x * tenTo power
    if product.isInf then none else some product
  else if x == 0 then some x
  else none

/-- The double that a number stands for: the digits that fit a 64-bit significand,
multiplied or divided by a power of ten that is itself a double. A number beyond
the range of doubles stands for none. -/
def Number.toFloat? (n : Number) : Option Float :=
  let (gathered, dropped) := gatherWhole 0 n.whole
  let (significand, used) := gatherFraction gathered n.fraction
  let x := Float.ofNat significand
  let magnitude? :=
    match (dropped : Int) - used + n.power with
    | .ofNat power => multiplyByTenTo? x power
    | .negSucc power => some (divideByTenTo x (power + 1))
  magnitude?.map fun magnitude => if n.negative then -magnitude else magnitude

/-! ## Fields of records -/

namespace Value

/-- The member of a name. `none` stands for a name that is given twice, and
`some none` for one that is not given. -/
def member? (members : List (Option String × Value)) (name : String) :
    Option (Option Value) :=
  match members.filter fun entry => entry.1 == some name with
  | [] => some none
  | [(_, value)] => some (some value)
  | _ => none

/-- The values of the named fields of a record, each `none` where it is not given.
A record is an object, whose other members do not matter, or the array of its
fields in order, of which the last ones may be left out. -/
def fields? (names : List String) : Value → Option (List (Option Value))
  | .object members =>
      if members.all fun entry => entry.1.isSome then names.mapM (member? members) else none
  | .array elements =>
      if elements.length ≤ names.length then
        some (elements.map some ++ List.replicate (names.length - elements.length) none)
      else none
  | _ => none

/-- A text. -/
def asText? : Value → Option String
  | .text value => value
  | _ => none

/-- A number within the range of doubles. -/
def asFloat? : Value → Option Float
  | .number value => value.toFloat?
  | _ => none

/-- A truth value. -/
def asBool? : Value → Option Bool
  | .bool value => some value
  | _ => none

/-- A list whose elements are all read by `read`. -/
def asList? {α : Type} (read : Value → Option α) : Value → Option (List α)
  | .array elements => elements.mapM read
  | _ => none

/-- What `read` makes of a value that is not null. -/
def asOption? {α : Type} (read : Value → Option α) : Value → Option (Option α)
  | .null => some none
  | value => (read value).map some

/-- A name without content: its text, or an object with that one name and null. -/
def asName? : Value → Option String
  | .text name => name
  | .object [(name, .null)] => name
  | _ => none

end Value

end NoteSheet.Json
