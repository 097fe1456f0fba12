import NoteSheet.Proofs.Cells

/-!
# Circular formulas

A recalculation evaluates the cell at a path on its own, while a reference evaluates it
inside another formula, with its note and the notes above it entered. The two runs cut a
circle at different places. Here they are shown to agree: what is cut off reads as not a
number, which spreads to everything computed from it, so a longer list of entered notes
can only take a number away (`read_blurs`). And when a note reads as not a number
wherever it is met, entering it changes nothing (`read_eq_of_unreadable`), so that
unrolling a circle once more does not bring the number back.

Main statement: `readReference_solves`, that the numbers shown on a sheet solve its
equations.
-/

namespace NoteSheet

deriving instance DecidableEq for FormulaNote
deriving instance DecidableEq for Target

namespace Sheet

variable {sheet : Sheet} {filter : Filter}

/-! ## More entered notes -/

/-- **Monotonicity**: entering more notes leaves a reading as it is, or cuts it off. -/
theorem read_blurs {small large : List Uid} (hSub : small ⊆ large) (origin : Path)
    (target : Target sheet.items) :
    Number.Blurs ((sheet.scope filter origin large).read target)
      ((sheet.scope filter origin small).read target) := by
  induction large using sheet.entered_induction generalizing small origin target with
  | step large ih =>
      cases target with
      | number value =>
          rw [Scope.read_number, Scope.read_number]
          exact .refl value
      | formula note path =>
          by_cases hLarge : note.id ∈ large
          · rw [read_note_of_mem origin hLarge]
            exact .nan _
          · have hSmall : note.id ∉ small := fun hMem => hLarge (hSub hMem)
            rw [read_note_of_not_mem origin hLarge, read_note_of_not_mem origin hSmall]
            apply Number.Blurs.ofResult
            apply evaluateText_related_of_read .blurs
            intro target _
            exact ih note hLarge (List.cons_subset_cons note.id hSub) path target

/-- Entering more notes leaves the result of a formula as it is, or makes its value not
a number. Whether and how it fails stays the same. -/
theorem evaluateText_blurs (sheet : Sheet) (filter : Filter) {small large : List Uid}
    (hSub : small ⊆ large) (origin : Path) (text : String) :
    Related Number.Blurs ((sheet.scope filter origin large).evaluateText text)
      ((sheet.scope filter origin small).evaluateText text) :=
  evaluateText_related_of_read .blurs (fun target _ => read_blurs hSub origin target) text

/-! ## Notes that read as no number -/

/-- A formula note reads as not a number wherever it is met, whatever is being evaluated. -/
def Unreadable (sheet : Sheet) (filter : Filter) (note : FormulaNote sheet.items) : Prop :=
  ∀ entered origin path, sheet.Shows path note.id →
    (sheet.scope filter origin entered).read (.formula note path) = Number.nan

/-- **Entering a note that reads as no number changes nothing**: it was not going to be
read as a number anyway. -/
theorem read_eq_of_unreadable {note : FormulaNote sheet.items}
    (hUnreadable : sheet.Unreadable filter note) {entered entered' : List Uid}
    (hEntered : ∀ id, id ∈ entered' ↔ id = note.id ∨ id ∈ entered) (origin : Path)
    {target : Target sheet.items} (hPlaced : sheet.Placed target) :
    (sheet.scope filter origin entered').read target =
      (sheet.scope filter origin entered).read target := by
  induction entered using sheet.entered_induction generalizing entered' origin target with
  | step entered ih =>
      cases target with
      | number value => rw [Scope.read_number, Scope.read_number]
      | formula met path =>
          by_cases hNote : met.id = note.id
          · obtain rfl := FormulaNote.eq_of_id hNote
            rw [hUnreadable entered' origin path hPlaced, hUnreadable entered origin path hPlaced]
          · have hSame : met.id ∈ entered' ↔ met.id ∈ entered := by
              rw [hEntered]
              exact or_iff_right hNote
            by_cases hMet : met.id ∈ entered
            · rw [read_note_of_mem origin hMet, read_note_of_mem origin (hSame.mpr hMet)]
            · rw [read_note_of_not_mem origin hMet,
                read_note_of_not_mem origin (mt hSame.mp hMet)]
              congr 1
              apply Related.eq
              apply evaluateText_related_of_read .eq
              intro target hTarget
              refine ih met hMet ?_ path hTarget
              intro id
              simp only [List.mem_cons, hEntered]
              exact or_left_comm

theorem evaluateText_eq_of_unreadable {note : FormulaNote sheet.items}
    (hUnreadable : sheet.Unreadable filter note) (origin : Path) (text : String) :
    (sheet.scope filter origin [note.id]).evaluateText text =
      (sheet.scope filter origin).evaluateText text := by
  apply Related.eq
  apply evaluateText_related_of_read .eq
  intro target hPlaced
  exact read_eq_of_unreadable hUnreadable (by simp) origin hPlaced

/-! ## Cells shown once -/

/-- At most one element shows an item. -/
def ShownOnce (sheet : Sheet) (id : Uid) : Prop :=
  ∀ path path', sheet.Shows path id → sheet.Shows path' id → path = path'

/-- A note that is shown once and is not a number inside its own circles is not a number
anywhere. -/
theorem unreadable_of_shownOnce {note : FormulaNote sheet.items} {path : Path}
    (hOnce : sheet.ShownOnce note.id) (hShows : sheet.Shows path note.id)
    (hNaN : (sheet.scope filter path [note.id]).evaluateText note.text = .ok Number.nan) :
    sheet.Unreadable filter note := by
  intro entered origin path' hShows'
  obtain rfl := hOnce path path' hShows hShows'
  by_cases hEntered : note.id ∈ entered
  · exact read_note_of_mem origin hEntered path
  · rw [read_note_of_not_mem origin hEntered]
    have hSub : [note.id] ⊆ note.id :: entered := List.cons_subset_cons _ (List.nil_subset _)
    have hBlurs := evaluateText_blurs sheet filter hSub path note.text
    rw [hNaN] at hBlurs
    rcases Number.Blurs.result_cases hBlurs with
      ⟨fault, -, hFault⟩ | ⟨y, hCut, -⟩ | ⟨y, hSame, hNumber⟩
    · cases hFault
    · rw [hCut]
      rfl
    · cases hNumber
      rw [hSame]
      rfl

/-- **A circle unrolled**: the cell of a note that is shown once has the same value inside
a formula that refers to it as on its own. -/
theorem ofResult_evaluateText_of_shownOnce {note : FormulaNote sheet.items} {path : Path}
    (hOnce : sheet.ShownOnce note.id) (hShows : sheet.Shows path note.id) :
    Number.ofResult ((sheet.scope filter path [note.id]).evaluateText note.text) =
      Number.ofResult ((sheet.scope filter path).evaluateText note.text) := by
  by_cases hNaN : (sheet.scope filter path [note.id]).evaluateText note.text = .ok Number.nan
  · rw [evaluateText_eq_of_unreadable (unreadable_of_shownOnce hOnce hShows hNaN)]
  · have hBlurs := evaluateText_blurs sheet filter (List.nil_subset [note.id]) path note.text
    rcases Number.Blurs.result_cases hBlurs with
      ⟨fault, hInside, hAlone⟩ | ⟨y, hCut, -⟩ | ⟨y, hInside, hAlone⟩
    · rw [hInside, hAlone]
    · exact absurd hCut hNaN
    · rw [hInside, hAlone]

/-- A cell is shown once when the elements of its item are all at one path. -/
theorem shownOnce_of_elements {id : Uid} (path : Path)
    (hElements : ∀ element ∈ sheet.layout.elements.toList,
      element.item = id → element.path = path) : sheet.ShownOnce id := by
  have hOnly : ∀ path', sheet.Shows path' id → path' = path := by
    rintro path' ⟨element, hElement, hItem⟩
    rw [← Layout.path_of_elementAt? hElement]
    exact hElements element (by simpa using Layout.mem_of_elementAt? hElement) hItem
  intro first second hFirst hSecond
  rw [hOnly first hFirst, hOnly second hSecond]

/-! ## A circle with a reader -/

/-- Where the note in some row of a column is placed. -/
def columnPath (row : Nat) : Path := (Path.root .empty).child (Uid.ofNat (row + 1))

/-- Flagged notes with some titles, placed one below the other. -/
def column (titles : List String) : Sheet :=
  let store := ItemStore.ofList <| titles.mapIdx fun row title =>
    { id := Uid.ofNat (row + 1), kind := .note, title }
  let place (layout : Layout) (row : Nat) : Layout :=
    let element : Element :=
      { path := columnPath row, item := Uid.ofNat (row + 1), kind := .note
        box := ⟨0, 10 * row.toFloat, 10, 10⟩ }
    (layout.insert element).toOption.getD layout
  Sheet.markFormulas ⟨store, (List.range titles.length).foldl place .empty⟩

/-- Two cells that read each other, above a cell that reads the first of them. -/
def circle : Sheet := column ["=$D1+1", "=$U1", "=$U2*2"]

/-- The note at the top of `circle`. -/
def circleTop : FormulaNote circle.items where
  item := { id := Uid.ofNat 1, kind := .note, title := "=$D1+1" }
  text := "$D1+1"
  stored := by decide +kernel
  formula := by decide +kernel

theorem circle_reader_lands :
    (circle.scope .anything (columnPath 2)).target (.relative .up 2) =
      .ok (.formula circleTop (columnPath 0)) := by
  have hTarget : (circle.scope .anything (columnPath 2)).relativeTarget .up 2 =
      .formula circleTop (columnPath 0) := by decide +kernel
  rw [Scope.target, hTarget]

/-! ## The equations of a sheet -/

/-- **Shown values solve the equations.** When a reference of a cell lands on the formula
cell at `path`, the number it reads there is not a number, or exactly what that cell
evaluates to on its own; it is not a number when that cell fails. When no other element
shows the note, it is exactly what the cell evaluates to, circles included. -/
theorem readReference_solves (sheet : Sheet) (filter : Filter) {origin path : Path}
    {ref : Reference} {note : FormulaNote sheet.items}
    (hLands : (sheet.scope filter origin).target ref = .ok (.formula note path)) :
    ∃ x result, (sheet.scope filter origin).readReference ref = .ok x ∧
      sheet.resultAt? filter path = some result ∧
      (x = Number.nan ∨ result = .ok x) ∧
      (∀ fault, result = .error fault → x = Number.nan) ∧
      (sheet.ShownOnce note.id → x = Number.ofResult result) := by
  have hShows : sheet.Shows path note.id := Scope.shows_of_target hLands
  have hRead : (sheet.scope filter origin).readReference ref =
      .ok (Number.ofResult ((sheet.scope filter path [note.id]).evaluateText note.text)) := by
    rw [Scope.readReference_eq, hLands]
    exact congrArg Except.ok (read_note_of_not_mem origin List.not_mem_nil path)
  have hResult := resultAt?_of_formulaAt? (formulaAt?_of_shows hShows) filter
  have hBlurs := evaluateText_blurs sheet filter (List.nil_subset [note.id]) path note.text
  refine ⟨_, _, hRead, hResult, Number.Blurs.ofResult_or_value hBlurs, ?_, ?_⟩
  · intro fault hFault
    rw [hFault] at hBlurs
    exact Number.Blurs.ofResult_of_error hBlurs
  · intro hOnce
    exact ofResult_evaluateText_of_shownOnce hOnce hShows

/-- The reader below a circle reads exactly what the first cell of the circle shows. -/
theorem readReference_solves_circle :
    ∃ x result, (circle.scope .anything (columnPath 2)).readReference (.relative .up 2) = .ok x ∧
      circle.resultAt? .anything (columnPath 0) = some result ∧ x = Number.ofResult result := by
  have hOnce : circle.ShownOnce circleTop.id :=
    shownOnce_of_elements (columnPath 0) (by decide +kernel)
  obtain ⟨x, result, hRead, hResult, -, -, hSame⟩ :=
    readReference_solves circle .anything circle_reader_lands
  exact ⟨x, result, hRead, hResult, hSame hOnce⟩

end Sheet

end NoteSheet
