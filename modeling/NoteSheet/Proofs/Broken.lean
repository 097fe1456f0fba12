import Mathlib.Logic.Relation
import NoteSheet.Proofs.Circles
import NoteSheet.Proofs.Recalculation

/-!
# Broken cells

A formula cell is broken when its own formula fails, or when its references lead back to
it. A failure inside another formula is swallowed: there it reads as not a number, and
the guard against circles may cut a chain of references anywhere, since a note can be
shown in many places. Still, no number comes out of a broken cell, however long the chain
of references that leads to it.

The invariant is a set of cells that lean on each other (`Sheet.Leaning`): each of them
fails, or refers to another one of the set. Whatever has been entered, none of them
evaluates to a number (`Leaning.eq_nan_of_evaluateText`). Main statement:
`override?_of_reaches_broken`.
-/

namespace NoteSheet

/-- The title of a formula note begins with `=`. -/
theorem Item.title_of_formula? {item : Item} {text : String} (h : item.formula? = some text) :
    ∃ rest, item.title.toList = '=' :: rest := by
  unfold formula? at h
  split at h
  · rename_i rest _ hTitle
    exact ⟨rest, hTitle⟩
  · cases h

namespace Sheet

open Relation (ReflTransGen TransGen)

variable {sheet : Sheet} {filter : Filter}

/-! ## References between cells -/

/-- A reference in the formula of one cell lands on the formula cell at another path. -/
def RefersTo (sheet : Sheet) (filter : Filter) (path next : Path) : Prop :=
  ∃ text ref note, sheet.formulaAt? path = some text ∧ ref ∈ Expr.referencesIn text ∧
    (sheet.scope filter path).target ref = .ok (.formula note next)

/-- A formula cell that has no value of its own, or lies on a circle of references. -/
def Broken (sheet : Sheet) (filter : Filter) (path : Path) : Prop :=
  sheet.fails filter path ∨ TransGen (sheet.RefersTo filter) path path

theorem fails_iff {path : Path} :
    sheet.fails filter path ↔ ∃ fault, sheet.resultAt? filter path = some (.error fault) := by
  unfold fails
  cases sheet.resultAt? filter path with
  | none => simp
  | some result => cases result <;> simp [Except.isOk, Except.toBool]

/-! ## Cells that lean on each other -/

/-- Each of some cells fails, or refers to another one of them. -/
def Leaning (sheet : Sheet) (filter : Filter) (cells : Path → Prop) : Prop :=
  ∀ path, cells path →
    sheet.fails filter path ∨ ∃ next, sheet.RefersTo filter path next ∧ cells next

/-- **No number comes out**: whatever has been entered, the formula of a leaning cell has
no value but the one that is not a number. -/
theorem Leaning.eq_nan_of_evaluateText {cells : Path → Prop}
    (hLeaning : sheet.Leaning filter cells) {path : Path} (hCell : cells path) {text : String}
    (hText : sheet.formulaAt? path = some text) (entered : List Uid) {x : Float}
    (hValue : (sheet.scope filter path entered).evaluateText text = .ok x) : x = Number.nan := by
  induction entered using sheet.entered_induction generalizing path text x with
  | step entered ih =>
      apply Classical.byContradiction
      intro hNumber
      rcases hLeaning path hCell with
        hFails | ⟨next, ⟨text', ref, note, hText', hMem, hLands⟩, hNext⟩
      · -- Entering notes neither causes nor cures a failure.
        obtain ⟨fault, hFault⟩ := fails_iff.mp hFails
        rw [resultAt?_of_formulaAt? hText] at hFault
        have hBlurs := evaluateText_blurs sheet filter (List.nil_subset entered) path text
        rw [hValue, Option.some.inj hFault] at hBlurs
        cases hBlurs
      · rw [hText] at hText'
        cases hText'
        obtain ⟨y, hRead, hY⟩ := Scope.readReference_of_evaluateText hValue hNumber hMem
        rw [Scope.readReference_eq, Scope.target_entered, hLands] at hRead
        cases hRead
        have hNew : note.id ∉ entered := fun hEntered => hY (read_note_of_mem path hEntered next)
        rw [read_note_of_not_mem path hNew] at hY
        have hNextText := formulaAt?_of_shows (Scope.shows_of_target hLands)
        cases hInner : (sheet.scope filter next (note.id :: entered)).evaluateText note.text with
        | error fault =>
            rw [hInner] at hY
            exact hY rfl
        | ok z =>
            rw [hInner] at hY
            exact hY (ih note hNew hNext hNextText hInner)

/-- The cells from which references lead to a broken cell lean on each other. -/
theorem leaning_reaches_broken (sheet : Sheet) (filter : Filter) :
    sheet.Leaning filter fun path =>
      ∃ broken, sheet.Broken filter broken ∧ ReflTransGen (sheet.RefersTo filter) path broken := by
  rintro path ⟨broken, hBroken, hReaches⟩
  rcases ReflTransGen.cases_head hReaches with rfl | ⟨next, hStep, hRest⟩
  · rcases hBroken with hFails | hCircle
    · exact Or.inl hFails
    · -- The next cell on a circle lies on the same circle.
      obtain ⟨next, hStep, hBack⟩ := TransGen.head'_iff.mp hCircle
      exact Or.inr ⟨next, hStep, next, Or.inr (TransGen.tail' hBack hStep), .refl⟩
  · exact Or.inr ⟨next, hStep, broken, hBroken, hRest⟩

/-- A cell from which references lead to a broken cell is a formula cell. -/
theorem formulaAt?_of_reaches_broken {path broken : Path} (hBroken : sheet.Broken filter broken)
    (hReaches : ReflTransGen (sheet.RefersTo filter) path broken) :
    ∃ text, sheet.formulaAt? path = some text := by
  rcases leaning_reaches_broken sheet filter path ⟨broken, hBroken, hReaches⟩ with
    hFails | ⟨next, ⟨text, -, -, hText, -⟩, -⟩
  · obtain ⟨fault, hFault⟩ := fails_iff.mp hFails
    obtain ⟨text, hText, -⟩ := Option.map_eq_some_iff.mp hFault
    exact ⟨text, hText⟩
  · exact ⟨text, hText⟩

/-! ## What is shown -/

/-- **Broken input never turns into a number**: after a recalculation, in whatever order,
a flagged cell from which references lead to a broken cell shows `NaN` or the title of
its note, and this is not how any finite or infinite number is shown. -/
theorem override?_of_reaches_broken (sheet : Sheet) (filter : Filter) {order : List Path}
    (hOrder : order.Perm sheet.layout.flagged) {path broken : Path}
    (hFlagged : path ∈ sheet.layout.flagged) (hBroken : sheet.Broken filter broken)
    (hReaches : ReflTransGen (sheet.RefersTo filter) path broken) :
    ∃ item text, sheet.itemAt? path = some item ∧
      (sheet.recalculateIn filter order).1.layout.override? path = some text ∧
      (text = "NaN" ∨ text = item.title) ∧ ∀ x, displayText x = text → x = Number.nan := by
  obtain ⟨text, hText⟩ := formulaAt?_of_reaches_broken hBroken hReaches
  obtain ⟨item, hItem, hFormula⟩ := Option.bind_eq_some_iff.mp hText
  have hShown := (sheet.recalculatedOn_recalculateIn filter order).override?_eq path
  rw [if_pos (hOrder.mem_iff.mpr hFlagged), outcome_of_formula? hItem hFormula] at hShown
  cases hValue : (sheet.scope filter path).evaluateText text with
  | error fault =>
      rw [hValue] at hShown
      obtain ⟨rest, hTitle⟩ := Item.title_of_formula? hFormula
      refine ⟨item, item.title, hItem, hShown, Or.inr rfl, ?_⟩
      intro x hDisplay
      exact absurd hDisplay (displayText_ne_formula x hTitle)
  | ok x =>
      rw [hValue] at hShown
      obtain rfl := (leaning_reaches_broken sheet filter).eq_nan_of_evaluateText
        ⟨broken, hBroken, hReaches⟩ hText [] hValue
      refine ⟨item, "NaN", hItem, ?_, Or.inl rfl, ?_⟩
      · rw [hShown, ← displayText_nan]
        rfl
      · intro y hDisplay
        exact displayText_eq_iff_nan.mp hDisplay

/-- The note below the top of `circle`. -/
def circleBottom : FormulaNote circle.items where
  item := { id := Uid.ofNat 2, kind := .note, title := "=$U1" }
  text := "$U1"
  stored := by decide +kernel
  formula := by decide +kernel

/-- The cell below a circle shows `NaN` or its title. -/
theorem override?_of_reaches_broken_circle :
    ∃ item text, circle.itemAt? (columnPath 2) = some item ∧
      (circle.recalculateIn .anything circle.layout.flagged.reverse).1.layout.override?
        (columnPath 2) = some text ∧
      (text = "NaN" ∨ text = item.title) ∧ ∀ x, displayText x = text → x = Number.nan := by
  have hCells : circle.formulaAt? (columnPath 0) = some "$D1+1" ∧
      circle.formulaAt? (columnPath 1) = some "$U1" ∧
      circle.formulaAt? (columnPath 2) = some "$U2*2" := by decide +kernel
  have hTargets : (circle.scope .anything (columnPath 0)).relativeTarget .down 1 =
        .formula circleBottom (columnPath 1) ∧
      (circle.scope .anything (columnPath 1)).relativeTarget .up 1 =
        .formula circleTop (columnPath 0) := by decide +kernel
  have hDown : circle.RefersTo .anything (columnPath 0) (columnPath 1) :=
    ⟨"$D1+1", .relative .down 1, circleBottom, hCells.1, by decide +kernel,
      congrArg Except.ok hTargets.1⟩
  have hUp : circle.RefersTo .anything (columnPath 1) (columnPath 0) :=
    ⟨"$U1", .relative .up 1, circleTop, hCells.2.1, by decide +kernel,
      congrArg Except.ok hTargets.2⟩
  have hReads : circle.RefersTo .anything (columnPath 2) (columnPath 0) :=
    ⟨"$U2*2", .relative .up 2, circleTop, hCells.2.2, by decide +kernel, circle_reader_lands⟩
  have hCircle : circle.Broken .anything (columnPath 0) :=
    Or.inr (TransGen.tail (.single hDown) hUp)
  exact override?_of_reaches_broken circle .anything (List.reverse_perm _) (by decide +kernel)
    hCircle (.single hReads)

end Sheet

end NoteSheet
