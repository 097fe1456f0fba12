import NoteSheet.Decimal.Style
import NoteSheet.Evaluation

/-!
# Recalculating a sheet

A recalculation goes through the flagged paths and shows, on every element whose
note is a formula, the value of the formula, or the note's title when the formula
has no value. Every formula is evaluated anew: formulas that refer to other
formulas evaluate them in place and never read what is shown. Flagged paths
without an element or without a formula are counted and left as they are.
-/

namespace NoteSheet

/-- What becomes of one flagged path. -/
inductive CellOutcome where
  /-- No formula is laid out there. -/
  | skipped
  | value (x : Float)
  /-- The formula has no value. -/
  | failed (title : String)

namespace CellOutcome

/-- The text that the element is to show. -/
def text? : CellOutcome → Option String
  | skipped => none
  | value x => some (displayText x)
  | failed title => some title

end CellOutcome

/-- How many flagged paths had which outcome. -/
structure Tally where
  /-- The flagged formulas, with a value or without. They are counted on their own. -/
  formulas : Nat := 0
  calculated : Nat := 0
  failed : Nat := 0
  skipped : Nat := 0
deriving DecidableEq, Repr

namespace Tally

/-- Counts one more outcome. -/
def count (tally : Tally) : CellOutcome → Tally
  | .skipped => { tally with skipped := tally.skipped + 1 }
  | .value _ =>
      { tally with formulas := tally.formulas + 1, calculated := tally.calculated + 1 }
  | .failed _ => { tally with formulas := tally.formulas + 1, failed := tally.failed + 1 }

/-- Every formula that is counted is counted once more, by what became of it. -/
theorem formulas_count {tally : Tally} (h : tally.formulas = tally.calculated + tally.failed)
    (outcome : CellOutcome) :
    (tally.count outcome).formulas =
      (tally.count outcome).calculated + (tally.count outcome).failed := by
  cases outcome with
  | skipped => exact h
  | value x =>
      show tally.formulas + 1 = tally.calculated + 1 + tally.failed
      omega
  | failed title =>
      show tally.formulas + 1 = tally.calculated + (tally.failed + 1)
      omega

end Tally

namespace Sheet

/-- What a recalculation makes of a flagged path. -/
def outcome (sheet : Sheet) (filter : Filter) (path : Path) : CellOutcome :=
  match sheet.layout.elementAt? path with
  | none => .skipped
  | some element =>
      match sheet.items.get? element.item with
      | none => .skipped
      | some item =>
          match item.formula? with
          | none => .skipped
          | some text =>
              match Scope.evaluateText { sheet, filter, origin := path } text with
              | .ok x => .value x
              | .error _ => .failed item.title

/-- Shows a text on the element at a path, if there is a text to show. -/
def show? (sheet : Sheet) (path : Path) : Option String → Sheet
  | none => sheet
  | some text => { sheet with layout := sheet.layout.setOverride path text }

/-- Recalculates one path after the others before it. -/
def recalculateCell (filter : Filter) (state : Sheet × Tally) (path : Path) : Sheet × Tally :=
  let outcome := state.1.outcome filter path
  (state.1.show? path outcome.text?, state.2.count outcome)

/-- Recalculates the paths of a list in its order. -/
def recalculateIn (sheet : Sheet) (filter : Filter) (order : List Path) : Sheet × Tally :=
  order.foldl (recalculateCell filter) (sheet, {})

/-- Recalculates all flagged paths. -/
def recalculate (sheet : Sheet) (filter : Filter := .anything) : Sheet × Tally :=
  sheet.recalculateIn filter sheet.layout.flagged

end Sheet

end NoteSheet
