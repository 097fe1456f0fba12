import NoteSheet.Decimal.Title
import NoteSheet.Formula.Lexer

/-!
# What literals stand for

The values behind the literals of tokens: the double nearest to a number, the
identifier of an absolute reference, and the direction and steps of a relative
one. A step count that is too large to write in 32 bits counts as the largest
that is not.

The readers take any text, and not only what the lexer passes to them. A text
that is not a number reads as the double that is none, and a reference may do
without its `$`. A reference that names nothing is refused, with the cause.
-/

namespace NoteSheet.Literal

/-! ## Numbers -/

/-- The power of ten that a text is: none at all, or an exponent mark and digits,
with a sign between them or without. -/
def scale? : List Char → Option Int
  | [] => some 0
  | mark :: rest =>
      let (negative, digits) := Title.sign rest
      if mark.toLower == 'e' && !digits.isEmpty && digits.all Char.isDigit then
        let power := (Decimal.ofDigits digits : Int)
        some (if negative then -power else power)
      else none

/-- The number that a text without a sign is, all of it. Infinity is written in
any case, and may be cut short. -/
def magnitude? (cs : List Char) : Option Float :=
  let whole := cs.takeWhile Char.isDigit
  let (part, rest) := Title.fraction (cs.dropWhile Char.isDigit)
  if whole.isEmpty && part.isEmpty then
    if cs.map Char.toLower ∈ ["inf".toList, "infinity".toList] then some Number.infinity
    else none
  else (scale? rest).map fun scale => (Decimal.ofParts whole part scale).toFloat

/-- The number that a text is. A lone point is not a number. -/
def number (literal : String) : Float :=
  let (negative, rest) := Title.sign literal.toList
  match magnitude? rest with
  | some value => if negative then -value else value
  | none => Number.nan

/-! ## References -/

/-- Why a literal names nothing. -/
inductive Cause where
  /-- It is no identifier, or begins with no direction letter. -/
  | name (fault : Error)
  /-- Nothing stands after the `$`. -/
  | missingDirection
  /-- What stands after the direction letter are not digits. -/
  | missingSteps
deriving DecidableEq, Repr

/-- The wording of a cause. -/
def Cause.message : Cause → String
  | name fault => fault.message
  | missingDirection => "missing direction"
  | missingSteps => "missing step count"

/-- A reference literal that names nothing. -/
structure Fault where
  literal : String
  cause : Cause
deriving DecidableEq, Repr

/-- The wording of a fault. -/
def Fault.message (fault : Fault) : String :=
  "'" ++ fault.literal ++ "': " ++ fault.cause.message

/-- The characters of a literal, less the `$` at the front if there is one. -/
def body (literal : String) : List Char :=
  match literal.toList with
  | '$' :: word => word
  | word => word

/-- The identifier of an absolute reference. -/
def absolute (literal : String) : Except Fault Uid :=
  match Uid.parse (String.ofList (body literal)) with
  | .error fault => .error ⟨literal, .name fault⟩
  | .ok id => .ok id

/-- The largest step count. -/
def maxSteps : Nat := UInt32.size - 1

/-- The direction and the steps of a relative reference. -/
def relative (literal : String) : Except Fault (Direction × Nat) :=
  match body literal with
  | [] => .error ⟨literal, .missingDirection⟩
  | letter :: steps =>
      match Direction.ofLetter letter with
      | .error fault => .error ⟨literal, .name fault⟩
      | .ok direction =>
          if !steps.isEmpty && steps.all Char.isDigit then
            .ok (direction, min (Decimal.ofDigits steps) maxSteps)
          else .error ⟨literal, .missingSteps⟩

/-! ## What is named -/

variable {literal : String}

theorem body_of_dollar {word : List Char} (h : literal.toList = '$' :: word) :
    body literal = word := by
  simp [body, h]

theorem absolute_eq_ok_iff {id : Uid} : absolute literal = .ok id ↔ body literal = id.digits := by
  unfold absolute Uid.parse
  rw [String.toList_ofList]
  cases hDigits : Uid.ofDigits? (body literal) with
  | none =>
      refine ⟨nofun, fun h => ?_⟩
      rw [h, Uid.ofDigits?_digits] at hDigits
      cases hDigits
  | some found =>
      refine ⟨?_, fun h => ?_⟩
      · rintro ⟨⟩
        exact (Uid.digits_of_ofDigits? hDigits).symm
      · rw [h, Uid.ofDigits?_digits] at hDigits
        exact congrArg Except.ok (Option.some.inj hDigits).symm

theorem relative_eq_ok_iff {direction : Direction} {steps : Nat} :
    relative literal = .ok (direction, steps) ↔
      ∃ letter digits, body literal = letter :: digits ∧
        Direction.ofLetter? letter = some direction ∧ digits ≠ [] ∧
        digits.all Char.isDigit = true ∧ steps = min (Decimal.ofDigits digits) maxSteps := by
  constructor
  · intro h
    unfold relative Direction.ofLetter at h
    cases hBody : body literal with
    | nil =>
        rw [hBody] at h
        cases h
    | cons letter digits =>
        rw [hBody] at h
        dsimp only at h
        cases hLetter : Direction.ofLetter? letter with
        | none =>
            rw [hLetter] at h
            cases h
        | some found =>
            rw [hLetter] at h
            dsimp only at h
            by_cases hSteps : (!digits.isEmpty && digits.all Char.isDigit) = true
            · rw [if_pos hSteps] at h
              cases h
              obtain ⟨hNonempty, hDigits⟩ := Bool.and_eq_true_iff.mp hSteps
              exact ⟨letter, digits, rfl, hLetter, by simpa using hNonempty, hDigits, rfl⟩
            · rw [if_neg hSteps] at h
              cases h
  · rintro ⟨letter, digits, hBody, hLetter, hNonempty, hDigits, rfl⟩
    unfold relative Direction.ofLetter
    rw [hBody]
    dsimp only
    rw [hLetter]
    have hSteps : (!digits.isEmpty && digits.all Char.isDigit) = true := by
      simpa [hNonempty] using hDigits
    exact if_pos hSteps

end NoteSheet.Literal
