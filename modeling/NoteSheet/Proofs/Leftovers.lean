import NoteSheet.Proofs.Absorption

/-!
# What earlier recalculations leave behind

A recalculation writes on the flagged elements that show a formula note. What it writes
there depends on the items and the elements as they are now and not on what is written on
them, so whatever history has gone before, those elements come to show the same.

On the other flagged elements it writes nothing. What an earlier recalculation has shown
on one of them stays, also when the note has been edited to a plain one in the meantime
(`override?_of_edited_note`).

Main statement: `recalculateIn_refreshes`, for two layouts that differ in nothing but what
earlier histories have left on their elements.
-/

namespace NoteSheet

/-- The same elements in the same order and the same flagged paths, but for the overrides. -/
structure Layout.Alike (first second : Layout) : Prop where
  bareElements : first.bareElements = second.bareElements
  flagged : first.flagged.Perm second.flagged

namespace Sheet

/-- Recalculations of any sheet that has the layout leave it alike. -/
theorem alike_recalculateIn (sheet : Sheet) (filter : Filter) (order : List Path) :
    sheet.layout.Alike (sheet.recalculateIn filter order).1.layout where
  bareElements := (recalculatedOn_recalculateIn sheet filter order).bareElements.symm
  flagged := by rw [(recalculatedOn_recalculateIn sheet filter order).flagged]

/-- What is shown at a path of a recalculation. -/
theorem override?_recalculateIn (sheet : Sheet) (filter : Filter) {order : List Path}
    {path : Path} (hMem : path ∈ order) :
    (sheet.recalculateIn filter order).1.layout.override? path =
      (sheet.outcome filter path).text?.or (sheet.layout.override? path) := by
  rw [(recalculatedOn_recalculateIn sheet filter order).override?_eq, if_pos hMem]

/-- **Fresh**: where a formula note is shown, what a recalculation shows does not depend on
what was shown before. -/
theorem override?_recalculateIn_of_formula {sheet : Sheet} (filter : Filter)
    {order : List Path} {path : Path} (hMem : path ∈ order)
    (hFormula : sheet.formulaAt? path ≠ none) :
    ∃ text, (sheet.outcome filter path).text? = some text ∧
      (sheet.recalculateIn filter order).1.layout.override? path = some text := by
  have hText := mt (sheet.text?_outcome_eq_none_iff filter path).mp hFormula
  obtain ⟨text, hText⟩ := Option.ne_none_iff_exists'.mp hText
  refine ⟨text, hText, ?_⟩
  rw [override?_recalculateIn sheet filter hMem, hText]
  rfl

/-- **Left alone**: where no formula note is shown, what was shown before stays. -/
theorem override?_recalculateIn_of_none {sheet : Sheet} (filter : Filter) {order : List Path}
    {path : Path} (hMem : path ∈ order) (hFormula : sheet.formulaAt? path = none) :
    (sheet.recalculateIn filter order).1.layout.override? path =
      sheet.layout.override? path := by
  rw [override?_recalculateIn sheet filter hMem, outcome_of_none hFormula]
  rfl

/-- **Formula cells are refreshed**: two layouts that differ in what earlier histories have
left on their elements show the same on every flagged formula cell once they have been
recalculated, in whatever orders. A flagged element without a formula note is left alone
in both. -/
theorem recalculateIn_refreshes (items : ItemStore) {first second : Layout}
    (hAlike : first.Alike second) (filter : Filter) {order order' : List Path}
    (hOrder : order.Perm first.flagged) (hOrder' : order'.Perm second.flagged) {path : Path}
    (hFlagged : path ∈ first.flagged) :
    let shown := (recalculateIn ⟨items, first⟩ filter order).1.layout.override? path
    let shown' := (recalculateIn ⟨items, second⟩ filter order').1.layout.override? path
    (formulaAt? ⟨items, first⟩ path ≠ none → shown ≠ none ∧ shown = shown') ∧
      (formulaAt? ⟨items, first⟩ path = none →
        shown = first.override? path ∧ shown' = second.override? path) := by
  intro shown shown'
  have hMem : path ∈ order := hOrder.mem_iff.mpr hFlagged
  have hMem' : path ∈ order' := hOrder'.mem_iff.mpr (hAlike.flagged.mem_iff.mp hFlagged)
  have hView := Layout.SameView.of_bareElements hAlike.bareElements filter
  have hFormula : formulaAt? ⟨items, first⟩ path = formulaAt? ⟨items, second⟩ path := by
    unfold formulaAt?
    rw [hView.itemAt?_eq]
  constructor
  · intro hSome
    obtain ⟨text, hText, hShown⟩ := override?_recalculateIn_of_formula filter hMem hSome
    obtain ⟨text', hText', hShown'⟩ :=
      override?_recalculateIn_of_formula filter hMem' (hFormula ▸ hSome)
    have hSame : some text = some text' := by
      rw [← hText, ← hText', hView.outcome_eq]
    exact ⟨by simp [shown, hShown], hShown.trans (hSame.trans hShown'.symm)⟩
  · intro hNone
    exact ⟨override?_recalculateIn_of_none filter hMem hNone,
      override?_recalculateIn_of_none filter hMem' (hFormula ▸ hNone)⟩

/-- The top of `circle` shows the same after a recalculation, whether or not another one
went before that kept to pages and images. -/
theorem recalculateIn_refreshes_circle :
    let earlier := (circle.recalculateIn .pagesAndImages circle.layout.flagged.reverse).1.layout
    (recalculateIn ⟨circle.items, circle.layout⟩ .anything circle.layout.flagged).1.layout.override?
        (columnPath 0) =
      (recalculateIn ⟨circle.items, earlier⟩ .anything earlier.flagged).1.layout.override?
        (columnPath 0) := by
  intro earlier
  have hAlike : circle.layout.Alike earlier :=
    circle.alike_recalculateIn .pagesAndImages circle.layout.flagged.reverse
  have hFlagged : columnPath 0 ∈ circle.layout.flagged := by decide +kernel
  have hFormula : formulaAt? ⟨circle.items, circle.layout⟩ (columnPath 0) ≠ none := by
    decide +kernel
  have hRefreshed := recalculateIn_refreshes circle.items hAlike .anything
    (List.Perm.refl circle.layout.flagged) (List.Perm.refl earlier.flagged) hFlagged
  exact (hRefreshed.1 hFormula).2

/-- **A stale text**: a note with a formula is recalculated, then edited to a plain one and
recalculated again. It is flagged and laid out all the while, and still shows the value of
the formula it no longer has; without the first recalculation it shows its title. -/
theorem override?_of_edited_note :
    let sheet := column ["=7"]
    let earlier := (sheet.recalculateIn .anything sheet.layout.flagged).1.layout
    let items := sheet.items.edit (Uid.ofNat 1) { title := some "12" }
    sheet.layout.Alike earlier ∧ columnPath 0 ∈ sheet.layout.flagged ∧
      (sheet.layout.elementAt? (columnPath 0)).isSome = true ∧
      (recalculateIn ⟨items, sheet.layout⟩ .anything sheet.layout.flagged).1.layout.override?
        (columnPath 0) = none ∧
      (recalculateIn ⟨items, earlier⟩ .anything earlier.flagged).1.layout.override?
        (columnPath 0) = some "7" := by
  intro sheet earlier items
  have hAlike : sheet.layout.Alike earlier :=
    sheet.alike_recalculateIn .anything sheet.layout.flagged
  refine ⟨hAlike, ?_, ?_, ?_, ?_⟩
  · decide +kernel
  · decide +kernel
  · decide +kernel
  · decide +kernel

end Sheet

end NoteSheet
