import Mathlib.Logic.Relation
import NoteSheet.Proofs.Circles
import NoteSheet.Proofs.Recalculation

/-!
# A recalculation absorbs the ones before it

A recalculation writes on the flagged elements that show a formula, all of them and no
others. Which elements those are depends on the items and the flags, not on the filter
and not on what was written before. So whatever earlier recalculations have left on the
elements, the next one overwrites it with what it would have written without them.

`RecalculatedOn.absorb` is the step: a recalculation on top of another is a recalculation
of the first sheet. Main statement: `recalculateIn_absorbs`, for any number of earlier
recalculations with any filters and in any orders.
-/

namespace NoteSheet.Sheet

variable {sheet : Sheet} {filter filter' : Filter}

/-- There is a text to show where there is a formula, whatever the filter. -/
theorem text?_outcome_eq_none_iff (sheet : Sheet) (filter : Filter) (path : Path) :
    (sheet.outcome filter path).text? = none ↔ sheet.formulaAt? path = none := by
  constructor
  · intro hText
    cases hFormula : sheet.formulaAt? path with
    | none => rfl
    | some text =>
        obtain ⟨item, hItem, hItemFormula⟩ := Option.bind_eq_some_iff.mp hFormula
        rw [outcome_of_formula? hItem hItemFormula] at hText
        cases hResult : (sheet.scope filter path).evaluateText text with
        | error fault =>
            rw [hResult] at hText
            cases hText
        | ok x =>
            rw [hResult] at hText
            cases hText
  · intro hFormula
    rw [outcome_of_none hFormula]
    rfl

/-- What was shown on an element before does not show through. -/
theorem shown_shown (sheet : Sheet) (filter filter' : Filter) (element : Element) :
    sheet.shown filter' (sheet.shown filter element) = sheet.shown filter' element := by
  cases hText : (sheet.outcome filter element.path).text? with
  | none =>
      have hSame : sheet.shown filter element = element := by
        unfold shown
        rw [hText]
      rw [hSame]
  | some text =>
      have hFormula := mt (sheet.text?_outcome_eq_none_iff filter element.path).mpr
        (by simp [hText])
      obtain ⟨text', hText'⟩ := Option.ne_none_iff_exists'.mp
        (mt (sheet.text?_outcome_eq_none_iff filter' element.path).mp hFormula)
      unfold shown
      rw [hText]
      dsimp only
      rw [hText']

namespace RecalculatedOn

variable {order order' : List Path} {state state' : Sheet × Tally}

/-- Cells have the results that they had before. -/
theorem resultAt?_eq (h : sheet.RecalculatedOn filter order state) (filter' : Filter) :
    state.1.resultAt? filter' = sheet.resultAt? filter' := by
  funext path
  have hView := (Layout.SameView.of_bareElements h.bareElements filter').resultAt?_eq
    sheet.items path
  rw [← hView, ← h.items]

/-- Formulas are where they were before. -/
theorem formulaAt?_eq (h : sheet.RecalculatedOn filter order state) :
    state.1.formulaAt? = sheet.formulaAt? := by
  funext path
  have hView := (Layout.SameView.of_bareElements h.bareElements filter).itemAt?_eq
    sheet.items path
  unfold formulaAt?
  rw [← hView, ← h.items]

/-- The elements after a recalculation on top of another one of the same paths. -/
theorem elements_absorb (h : sheet.RecalculatedOn filter order state)
    (h' : state.1.RecalculatedOn filter' order' state') (hPaths : order'.Perm order) :
    state'.1.layout.elements = sheet.layout.elements.map (sheet.shownOn filter' order') := by
  rw [h'.elements, h.elements, Array.map_map]
  congr 1
  funext element
  have hShown : state.1.shown filter' = sheet.shown filter' := by
    funext element
    unfold shown
    rw [h.outcome_eq]
  rw [Function.comp_apply, shownOn, shownOn_path, hShown, shownOn, shownOn]
  by_cases hPath : element.path ∈ order'
  · rw [if_pos hPath, if_pos (hPaths.mem_iff.mp hPath), if_pos hPath, shown_shown]
  · rw [if_neg hPath, if_neg (mt hPaths.mem_iff.mpr hPath), if_neg hPath]

/-- **Step**: a recalculation on top of another one of the same paths is a recalculation
of the sheet as it was before both. -/
theorem absorb (h : sheet.RecalculatedOn filter order state)
    (h' : state.1.RecalculatedOn filter' order' state') (hPaths : order'.Perm order) :
    sheet.RecalculatedOn filter' order' state' where
  items := h'.items.trans h.items
  index := h'.index.trans h.index
  flagged := h'.flagged.trans h.flagged
  elements := h.elements_absorb h' hPaths
  calculated := by
    rw [h'.calculated]
    unfold hasValue
    rw [h.resultAt?_eq]
  failed := by
    rw [h'.failed]
    unfold fails
    rw [h.resultAt?_eq]
  skipped := by
    rw [h'.skipped]
    unfold lacksFormula
    rw [h.formulaAt?_eq]
  formulas := h'.formulas

end RecalculatedOn

/-! ## Any number of recalculations -/

/-- One recalculation of all flagged paths, under some filter and in some order. -/
inductive Recalculates (before : Sheet) : Sheet → Prop
  | pass (filter : Filter) {order : List Path} (enumerates : order.Perm before.layout.flagged) :
      Recalculates before (before.recalculateIn filter order).1

/-- **Run**: after any number of recalculations, the same paths are flagged as at first,
and one more recalculation is one of the first sheet. -/
theorem recalculatedOn_of_reflTransGen {later : Sheet}
    (hEarlier : Relation.ReflTransGen Recalculates sheet later) :
    later.layout.flagged = sheet.layout.flagged ∧
      ∀ filter order, order.Perm later.layout.flagged →
        sheet.RecalculatedOn filter order (later.recalculateIn filter order) := by
  induction hEarlier with
  | refl => exact ⟨rfl, fun filter order _ => recalculatedOn_recalculateIn sheet filter order⟩
  | @tail middle last _ hLast ih =>
      obtain ⟨hFlagged, hRun⟩ := ih
      cases hLast with
      | @pass filter order hOrder =>
          have hMiddle := hRun filter order hOrder
          refine ⟨hMiddle.flagged, ?_⟩
          intro filter' order' hOrder'
          have hSame : order'.Perm order := by
            rw [hMiddle.flagged, ← hFlagged] at hOrder'
            exact hOrder'.trans hOrder.symm
          exact hMiddle.absorb (recalculatedOn_recalculateIn _ filter' order') hSame

/-- **Absorption**: whatever recalculations of all flagged paths have come before, under
any filters and in any orders, the next one leaves the sheet and the counts that it would
have left without them. -/
theorem recalculateIn_absorbs {later : Sheet}
    (hEarlier : Relation.ReflTransGen Recalculates sheet later) (filter : Filter)
    {order : List Path} (hOrder : order.Perm later.layout.flagged) :
    order.Perm sheet.layout.flagged ∧
      later.recalculateIn filter order = sheet.recalculateIn filter order := by
  obtain ⟨hFlagged, hRun⟩ := recalculatedOn_of_reflTransGen hEarlier
  refine ⟨hFlagged ▸ hOrder, ?_⟩
  exact (hRun filter order hOrder).eq_of_perm (List.Perm.refl order)
    (recalculatedOn_recalculateIn sheet filter order)

/-- A pass over `circle` in one order, after one that keeps to pages and images and one in
the other order. -/
theorem recalculateIn_absorbs_circle :
    let narrow := (circle.recalculateIn .pagesAndImages circle.layout.flagged.reverse).1
    let wide := (narrow.recalculateIn .anything circle.layout.flagged).1
    circle.layout.flagged.Perm circle.layout.flagged ∧
      wide.recalculateIn .anything circle.layout.flagged =
        circle.recalculateIn .anything circle.layout.flagged := by
  intro narrow wide
  have hNarrow := recalculatedOn_recalculateIn circle .pagesAndImages
    circle.layout.flagged.reverse
  have hWide := recalculatedOn_recalculateIn narrow .anything circle.layout.flagged
  have hFirst : Recalculates circle narrow := .pass .pagesAndImages (List.reverse_perm _)
  have hSecond : Recalculates narrow wide := .pass .anything (by rw [hNarrow.flagged])
  have hOrder : circle.layout.flagged.Perm wide.layout.flagged := by
    rw [hWide.flagged, hNarrow.flagged]
  exact recalculateIn_absorbs (.tail (.single hFirst) hSecond) .anything hOrder

end NoteSheet.Sheet
