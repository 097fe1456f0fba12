import NoteSheet.Proofs.References
import NoteSheet.Recalculation

/-!
# Formula cells

A formula cell is a placed element that shows a formula note. This module says what
the cell at a path holds, what its formula is worth on its own, and where a reference
from one cell to another lands.

Evaluating one formula note inside another enters it, and a note that has been entered
is not entered again. `Sheet.entered_induction` turns that into an induction: a property
of the list of entered notes holds of every list when it holds of a list as soon as it
holds after entering any further note.
-/

namespace NoteSheet

/-! ## Formula notes -/

namespace ItemStore

theorem stored_of_formulaNote? {store : ItemStore} {id : Uid} {note : FormulaNote store}
    (h : store.formulaNote? id = some note) : store.get? id = some note.item := by
  unfold formulaNote? at h
  split at h
  · cases h
  · rename_i item hItem
    split at h
    · cases h
    · cases h
      exact hItem

/-- A formula note is found under its own identifier. -/
theorem id_of_formulaNote? {store : ItemStore} {id : Uid} {note : FormulaNote store}
    (h : store.formulaNote? id = some note) : note.id = id :=
  id_of_get? (stored_of_formulaNote? h)

end ItemStore

/-- A formula note is determined by its identifier. -/
theorem FormulaNote.eq_of_id {store : ItemStore} {first second : FormulaNote store}
    (h : first.id = second.id) : first = second := by
  obtain ⟨item, text, hStored, hFormula⟩ := first
  obtain ⟨item', text', hStored', hFormula'⟩ := second
  have hId : item.id = item'.id := h
  rw [hId, hStored'] at hStored
  cases hStored
  rw [hFormula'] at hFormula
  cases hFormula
  rfl

/-! ## Cells -/

namespace Sheet

/-- The scope of a formula at a path, while some formula notes are being evaluated. -/
abbrev scope (sheet : Sheet) (filter : Filter) (origin : Path) (entered : List Uid := []) :
    Scope :=
  ⟨sheet, filter, origin, entered⟩

/-- The item that the element at a path shows. -/
def itemAt? (sheet : Sheet) (path : Path) : Option Item := do
  let element ← sheet.layout.elementAt? path
  sheet.items.get? element.item

/-- The formula text of the cell at a path, if a formula note is shown there. -/
def formulaAt? (sheet : Sheet) (path : Path) : Option String :=
  (sheet.itemAt? path).bind Item.formula?

/-- What the formula cell at a path evaluates to on its own, no other formula being
under evaluation. -/
def resultAt? (sheet : Sheet) (filter : Filter) (path : Path) :
    Option (Except FormulaError Float) :=
  (sheet.formulaAt? path).map (sheet.scope filter path).evaluateText

/-- Whether an element that shows an item is placed at a path. -/
def Shows (sheet : Sheet) (path : Path) (id : Uid) : Prop :=
  ∃ element, sheet.layout.elementAt? path = some element ∧ element.item = id

/-- Whether a target is met where it is placed: a formula note at an element that shows
it. What a reference lands on always is. -/
def Placed (sheet : Sheet) : Target sheet.items → Prop
  | .number _ => True
  | .formula note path => sheet.Shows path note.id

theorem resultAt?_of_formulaAt? {sheet : Sheet} {path : Path} {text : String}
    (h : sheet.formulaAt? path = some text) (filter : Filter) :
    sheet.resultAt? filter path = some ((sheet.scope filter path).evaluateText text) := by
  rw [resultAt?, h]
  rfl

/-- A formula note makes a cell of the element that shows it. -/
theorem formulaAt?_of_shows {sheet : Sheet} {path : Path} {note : FormulaNote sheet.items}
    (h : sheet.Shows path note.id) : sheet.formulaAt? path = some note.text := by
  obtain ⟨element, hElement, hItem⟩ := h
  have hStored : sheet.itemAt? path = some note.item := by
    simp only [itemAt?, hElement, Option.bind_eq_bind, Option.bind_some, hItem]
    exact note.stored
  rw [formulaAt?, hStored]
  exact note.formula

/-- What becomes of a flagged path, by the result of the cell there. -/
theorem outcome_eq (sheet : Sheet) (filter : Filter) (path : Path) :
    sheet.outcome filter path =
      match sheet.itemAt? path, sheet.resultAt? filter path with
      | some _, some (.ok x) => .value x
      | some item, some (.error _) => .failed item.title
      | _, _ => .skipped := by
  unfold outcome resultAt? formulaAt? itemAt?
  cases hElement : sheet.layout.elementAt? path with
  | none => simp
  | some element =>
      cases hItem : sheet.items.get? element.item with
      | none => simp [hItem]
      | some item =>
          cases hText : item.formula? with
          | none => simp [hItem, hText]
          | some text =>
              cases hResult : (sheet.scope filter path).evaluateText text with
              | error fault => simp [hItem, hText, hResult]
              | ok x => simp [hItem, hText, hResult]

end Sheet

/-! ## Where references land -/

namespace Scope

/-- What a reference lands on. -/
def target (scope : Scope) : Reference → Except ReferenceError (Target scope.sheet.items)
  | .absolute id => scope.absoluteTarget id
  | .relative direction steps => .ok (scope.relativeTarget direction steps)

/-- The result of a reference. -/
def readReference (scope : Scope) (ref : Reference) : Except ReferenceError Float :=
  ref.read scope.readAbsolute scope.readRelative

theorem readReference_eq (scope : Scope) (ref : Reference) :
    scope.readReference ref = (scope.target ref).map scope.read := by
  cases ref <;> rfl

/-- Where a reference lands does not depend on what is being evaluated. -/
theorem target_entered (sheet : Sheet) (filter : Filter) (origin : Path) (entered : List Uid)
    (ref : Reference) :
    (sheet.scope filter origin entered).target ref = (sheet.scope filter origin).target ref := by
  cases ref with
  | absolute id =>
      unfold target absoluteTarget
      dsimp only
      cases sheet.items.get? id with
      | none => rfl
      | some item =>
          cases sheet.items.formulaNote? id with
          | none => rfl
          | some note => rfl
  | relative direction steps =>
      unfold target relativeTarget
      dsimp only
      cases sheet.layout.hop? direction filter steps origin with
      | none => rfl
      | some path =>
          dsimp only
          cases sheet.layout.elementAt? path with
          | none => rfl
          | some element =>
              dsimp only
              cases sheet.items.formulaNote? element.item with
              | none => rfl
              | some note => rfl

/-- A formula note that a reference lands on is met at an element that shows it. -/
theorem shows_of_target {scope : Scope} {ref : Reference}
    {note : FormulaNote scope.sheet.items} {path : Path}
    (h : scope.target ref = .ok (.formula note path)) : scope.sheet.Shows path note.id := by
  cases ref with
  | absolute id =>
      unfold target absoluteTarget at h
      dsimp only at h
      split at h
      · cases h
      · split at h
        · rename_i found hFound
          split at h
          · rename_i element hElement
            cases h
            refine ⟨element, Layout.elementAt?_of_mem ?_, ?_⟩
            · simpa using List.mem_of_find?_eq_some hElement
            · rw [ItemStore.id_of_formulaNote? hFound]
              simpa using List.find?_some hElement
          · cases h
        · split at h <;> cases h
  | relative direction steps =>
      unfold target relativeTarget at h
      dsimp only at h
      split at h
      · cases h
      · split at h
        · cases h
        · rename_i element hElement
          split at h
          · rename_i found hFound
            cases h
            exact ⟨element, hElement, (ItemStore.id_of_formulaNote? hFound).symm⟩
          · cases h

theorem placed_of_target {scope : Scope} {ref : Reference} {target : Target scope.sheet.items}
    (h : scope.target ref = .ok target) : scope.sheet.Placed target := by
  cases target with
  | number value => trivial
  | formula note path => exact shows_of_target h

end Scope

/-! ## Reading a formula note -/

namespace Sheet

variable {sheet : Sheet} {filter : Filter}

/-- A formula note that is not being evaluated reads as the result of its formula. -/
theorem read_note (origin : Path) (entered : List Uid) (note : FormulaNote sheet.items)
    (path : Path) :
    (sheet.scope filter origin entered).read (.formula note path) =
      if note.id ∈ entered then Number.nan
      else Number.ofResult
        ((sheet.scope filter path (note.id :: entered)).evaluateText note.text) := by
  have hEnter : (sheet.scope filter origin entered).enter note.id path =
      sheet.scope filter path (note.id :: entered) := rfl
  rw [Scope.read_formula, hEnter]
  cases (sheet.scope filter path (note.id :: entered)).evaluateText note.text <;> rfl

theorem read_note_of_mem (origin : Path) {entered : List Uid} {note : FormulaNote sheet.items}
    (hEntered : note.id ∈ entered) (path : Path) :
    (sheet.scope filter origin entered).read (.formula note path) = Number.nan := by
  rw [read_note, if_pos hEntered]

theorem read_note_of_not_mem (origin : Path) {entered : List Uid}
    {note : FormulaNote sheet.items} (hNew : note.id ∉ entered) (path : Path) :
    (sheet.scope filter origin entered).read (.formula note path) =
      Number.ofResult
        ((sheet.scope filter path (note.id :: entered)).evaluateText note.text) := by
  rw [read_note, if_neg hNew]

/-- **Induction over what is being evaluated**, from the inside out: since only
finitely many formula notes are left to enter, a property of the entered notes may be
assumed after one more of them has been entered. -/
theorem entered_induction (sheet : Sheet) {motive : List Uid → Prop}
    (step : ∀ entered, (∀ note : FormulaNote sheet.items, note.id ∉ entered →
      motive (note.id :: entered)) → motive entered) (entered : List Uid) : motive entered := by
  let here (ids : List Uid) : Scope := sheet.scope .anything (Path.root Uid.empty) ids
  generalize hCount : (here entered).unentered = count
  induction count using Nat.strongRecOn generalizing entered with
  | ind count ih =>
      apply step
      intro note hNew
      have hLess := (here entered).unentered_enter_lt note (Path.root Uid.empty) hNew
      rw [hCount] at hLess
      exact ih _ hLess (note.id :: entered) rfl

end Sheet

/-! ## Formula texts compared -/

namespace Scope

theorem evaluateText_of_parse {scope : Scope} {text : String} {expr : Expr}
    (h : Expr.parse text = .ok expr) :
    scope.evaluateText text = (scope.evaluate expr).mapError .reference := by
  unfold evaluateText
  rw [h]

theorem evaluateText_of_parse_error {scope : Scope} {text : String} {fault : ParseError}
    (h : Expr.parse text = .error fault) : scope.evaluateText text = .error (.parse fault) := by
  unfold evaluateText
  rw [h]

/-- A formula that has a value is an expression that has it. -/
theorem parse_of_evaluateText {scope : Scope} {text : String} {x : Float}
    (h : scope.evaluateText text = .ok x) :
    ∃ expr, Expr.parse text = .ok expr ∧ scope.evaluate expr = .ok x := by
  cases hParse : Expr.parse text with
  | error fault =>
      rw [evaluateText_of_parse_error hParse] at h
      cases h
  | ok expr =>
      rw [evaluateText_of_parse hParse] at h
      exact ⟨expr, rfl, eq_ok_of_mapError h⟩

theorem referencesIn_of_parse {text : String} {expr : Expr} (h : Expr.parse text = .ok expr) :
    Expr.referencesIn text = expr.references := by
  unfold Expr.referencesIn
  rw [h]

/-- A formula whose references read alike in two scopes has like results in both. -/
theorem evaluateText_related {R : Float → Float → Prop} (hR : Arithmetical R)
    {scope scope' : Scope} {text : String}
    (hReads : ∀ ref ∈ Expr.referencesIn text,
      Related R (scope.readReference ref) (scope'.readReference ref)) :
    Related R (scope.evaluateText text) (scope'.evaluateText text) := by
  cases hParse : Expr.parse text with
  | error fault =>
      rw [evaluateText_of_parse_error hParse, evaluateText_of_parse_error hParse]
      exact .error _
  | ok expr =>
      rw [evaluateText_of_parse hParse, evaluateText_of_parse hParse]
      rw [referencesIn_of_parse hParse] at hReads
      exact (Expr.evaluate_related hR hReads).mapError _

/-- A formula whose value is a number reads a number at every one of its references. -/
theorem readReference_of_evaluateText {scope : Scope} {text : String} {x : Float}
    (hValue : scope.evaluateText text = .ok x) (hNumber : x ≠ Number.nan) {ref : Reference}
    (hMem : ref ∈ Expr.referencesIn text) :
    ∃ y, scope.readReference ref = .ok y ∧ y ≠ Number.nan := by
  obtain ⟨expr, hParse, hExpr⟩ := parse_of_evaluateText hValue
  rw [referencesIn_of_parse hParse] at hMem
  exact Expr.read_of_evaluate hExpr hNumber hMem

end Scope

namespace Sheet

variable {sheet : Sheet} {filter : Filter}

/-- A formula whose cells read alike under two lists of entered notes has like results
under both. -/
theorem evaluateText_related_of_read {R : Float → Float → Prop} (hR : Arithmetical R)
    {origin : Path} {entered entered' : List Uid}
    (hRead : ∀ target : Target sheet.items, sheet.Placed target →
      R ((sheet.scope filter origin entered).read target)
        ((sheet.scope filter origin entered').read target)) (text : String) :
    Related R ((sheet.scope filter origin entered).evaluateText text)
      ((sheet.scope filter origin entered').evaluateText text) := by
  apply Scope.evaluateText_related hR
  intro ref _
  rw [Scope.readReference_eq, Scope.readReference_eq, Scope.target_entered,
    Scope.target_entered sheet filter origin entered']
  cases hTarget : (sheet.scope filter origin).target ref with
  | error fault => exact .error fault
  | ok target => exact .ok (hRead target (Scope.placed_of_target hTarget))

end Sheet

end NoteSheet
