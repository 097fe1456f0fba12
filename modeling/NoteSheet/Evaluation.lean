import NoteSheet.Decimal.Title
import NoteSheet.Formula.Parser
import NoteSheet.Sheet

/-!
# Evaluating formulas

A formula is evaluated at the path of its element. A reference lands on a cell:
on a formula note, which is evaluated in its turn at the element where it was
met, or on a number, the one of a note's title or of a rating. A relative
reference that finds nothing to read is zero; an absolute reference that names
nothing to read is the only thing that makes a formula fail.

Formulas may refer to each other in circles. The scope of an evaluation knows
the formula notes that are being evaluated, and one that is met again reads as
not a number. That is also why evaluation ends: each formula note that is entered
is one of finitely many, and none is entered twice (`unentered_enter_lt`).
-/

namespace NoteSheet

/-- Why an absolute reference cannot be read. -/
inductive ReferenceError where
  /-- No item is stored under the identifier. -/
  | missing (id : Uid)
  /-- The item is a formula note that no element shows. -/
  | notLaidOut (id : Uid)
  /-- The item is neither a note nor a rating. -/
  | notReadable (id : Uid) (kind : ItemKind)
deriving DecidableEq

/-- The wording of a reference error. -/
def ReferenceError.message : ReferenceError → String
  | missing id => "Reference error: item " ++ id.text ++ " does not exist"
  | notLaidOut id => "Reference error: formula item " ++ id.text ++ " is not laid out"
  | notReadable id kind =>
      "Reference error: item " ++ id.text ++ " is a " ++ kind.name ++ ", not a note"

/-- Why a formula has no value. -/
inductive FormulaError where
  | parse (fault : ParseError)
  | reference (fault : ReferenceError)
deriving DecidableEq

/-- The wording of a formula error. -/
def FormulaError.message : FormulaError → String
  | parse fault => fault.message
  | reference fault => fault.message

/-- Whether the text of the formula was refused. -/
def FormulaError.isParseError : FormulaError → Bool
  | parse _ => true
  | reference _ => false

/-- The value of an expression, given how references are read. Operands are read
from left to right, and the first that fails is the failure of the whole. -/
def Expr.evaluate (absolute : Uid → Except ReferenceError Float)
    (relative : Direction → Nat → Float) : Expr → Except ReferenceError Float
  | .number value => .ok value
  | .absolute id => absolute id
  | .relative direction steps => .ok (relative direction steps)
  | .group inner => inner.evaluate absolute relative
  | .negate operand => (operand.evaluate absolute relative).map fun x => -x
  | .binary operator left right => do
      let x ← left.evaluate absolute relative
      let y ← right.evaluate absolute relative
      return operator.apply x y

/-- Where a formula is evaluated. -/
structure Scope where
  sheet : Sheet
  /-- Which siblings the steps of a relative reference may land on. -/
  filter : Filter := .anything
  /-- The path of the element that holds the formula. -/
  origin : Path
  /-- The formula notes that are being evaluated, the innermost first. -/
  entered : List Uid := []

/-- What a reference lands on. -/
inductive Target (store : ItemStore) where
  | number (value : Float)
  /-- A formula note, met at the element of a path. -/
  | formula (note : FormulaNote store) (path : Path)

namespace Scope

/-- What the cell of an item reads as, when it is not a formula. -/
def plainValue? (item : Item) : Option Float :=
  match item.kind with
  | .note => some (Title.number item.title)
  | .rating => some item.rating
  | .page | .image | .table | .file => none

/-- What an absolute reference lands on. A formula note is met at the first
element that shows it. -/
def absoluteTarget (scope : Scope) (id : Uid) :
    Except ReferenceError (Target scope.sheet.items) :=
  match scope.sheet.items.get? id with
  | none => .error (.missing id)
  | some item =>
      match scope.sheet.items.formulaNote? id with
      | some note =>
          match scope.sheet.layout.elementFor? id with
          | some element => .ok (.formula note element.path)
          | none => .error (.notLaidOut id)
      | none =>
          match plainValue? item with
          | some value => .ok (.number value)
          | none => .error (.notReadable id item.kind)

/-- What a relative reference lands on. -/
def relativeTarget (scope : Scope) (direction : Direction) (steps : Nat) :
    Target scope.sheet.items :=
  match scope.sheet.layout.hop? direction scope.filter steps scope.origin with
  | none => .number 0
  | some path =>
      match scope.sheet.layout.elementAt? path with
      | none => .number 0
      | some element =>
          match scope.sheet.items.formulaNote? element.item with
          | some note => .formula note path
          | none => .number (((scope.sheet.items.get? element.item).bind plainValue?).getD 0)

/-- The scope inside a formula note that is met at a path. -/
def enter (scope : Scope) (id : Uid) (path : Path) : Scope :=
  { scope with origin := path, entered := id :: scope.entered }

/-- The number of stored formula notes that are not being evaluated. -/
def unentered (scope : Scope) : Nat :=
  (scope.sheet.items.formulaIds.filter fun id => id ∉ scope.entered).length

/-- Entering a formula note leaves fewer to enter. -/
theorem unentered_enter_lt (scope : Scope) (note : FormulaNote scope.sheet.items) (path : Path)
    (hNew : note.id ∉ scope.entered) :
    (scope.enter note.id path).unentered < scope.unentered := by
  have hSplit : (scope.sheet.items.formulaIds.filter fun id => id ∉ note.id :: scope.entered) =
      (scope.sheet.items.formulaIds.filter fun id => id ∉ scope.entered).filter
        (· != note.id) := by
    rw [List.filter_filter]
    apply List.filter_congr
    intro id _
    by_cases hId : id = note.id <;> simp [hId]
  show (scope.sheet.items.formulaIds.filter fun id => id ∉ note.id :: scope.entered).length <
    (scope.sheet.items.formulaIds.filter fun id => id ∉ scope.entered).length
  rw [hSplit]
  apply List.length_filter_lt_length_iff_exists.mpr
  exact ⟨note.id, List.mem_filter.mpr ⟨note.mem_formulaIds, by simpa using hNew⟩, by simp⟩

/-- The number that a cell reads as. A formula note reads as not a number when it
is being evaluated already, and when it has no value of its own. -/
def read (scope : Scope) : Target scope.sheet.items → Float
  | .number value => value
  | .formula note path =>
      if _hEntered : note.id ∈ scope.entered then Number.nan
      else
        let inner := scope.enter note.id path
        match Expr.parse note.text with
        | .error _ => Number.nan
        | .ok expr =>
            let value := expr.evaluate
              (fun id => (inner.absoluteTarget id).map fun target => inner.read target)
              (fun direction steps => inner.read (inner.relativeTarget direction steps))
            match value with
            | .ok x => x
            | .error _ => Number.nan
termination_by scope.unentered
decreasing_by
  all_goals exact scope.unentered_enter_lt note path _hEntered

/-- The number that an absolute reference reads. -/
def readAbsolute (scope : Scope) (id : Uid) : Except ReferenceError Float :=
  (scope.absoluteTarget id).map scope.read

/-- The number that a relative reference reads. -/
def readRelative (scope : Scope) (direction : Direction) (steps : Nat) : Float :=
  scope.read (scope.relativeTarget direction steps)

/-- The value of an expression. -/
def evaluate (scope : Scope) (expr : Expr) : Except ReferenceError Float :=
  expr.evaluate scope.readAbsolute scope.readRelative

/-- The value of a formula, given as its text without the leading `=`. -/
def evaluateText (scope : Scope) (text : String) : Except FormulaError Float :=
  match Expr.parse text with
  | .error fault => .error (.parse fault)
  | .ok expr => (scope.evaluate expr).mapError .reference

@[simp] theorem read_number (scope : Scope) (value : Float) :
    scope.read (.number value) = value := by
  rw [read]

/-- A formula note that is not being evaluated reads as its own value. -/
theorem read_formula (scope : Scope) (note : FormulaNote scope.sheet.items) (path : Path) :
    scope.read (.formula note path) =
      if note.id ∈ scope.entered then Number.nan
      else
        match (scope.enter note.id path).evaluateText note.text with
        | .ok x => x
        | .error _ => Number.nan := by
  rw [read]
  split
  · rfl
  · unfold evaluateText evaluate
    cases Expr.parse note.text with
    | error fault => rfl
    | ok expr =>
        show (match expr.evaluate (scope.enter note.id path).readAbsolute
            (scope.enter note.id path).readRelative with
          | .ok x => x
          | .error _ => Number.nan) =
          match (expr.evaluate (scope.enter note.id path).readAbsolute
            (scope.enter note.id path).readRelative).mapError FormulaError.reference with
          | .ok x => x
          | .error _ => Number.nan
        cases expr.evaluate (scope.enter note.id path).readAbsolute
          (scope.enter note.id path).readRelative <;> rfl

end Scope

end NoteSheet
