import NoteSheet.Proofs.Overrides

/-!
# A recalculation is one simultaneous update

The flagged paths are recalculated one after the other, each on a layout to which the
paths before it have already been written. Since formulas do not see what is written,
every cell comes out as if it were recalculated alone on the sheet as it was at first,
whatever the order, and whatever became of the other cells.

The invariant of the run is `Sheet.RecalculatedOn`: after some of the paths, the state is
the first sheet with exactly the elements at those paths rewritten from their outcomes on
the first sheet. One step extends it by a path (`RecalculatedOn.step`), a whole run by a
list of paths (`RecalculatedOn.run`). Main statement: `recalculateIn_isSimultaneous`.
-/

namespace NoteSheet

namespace Layout

/-- A layout is its elements, its index and its flags. -/
theorem eq_of_fields {first second : Layout} (hElements : first.elements = second.elements)
    (hIndex : first.index = second.index) (hFlagged : first.flagged = second.flagged) :
    first = second := by
  obtain ⟨elements, index, flagged, _, _⟩ := first
  obtain ⟨elements', index', flagged', _, _⟩ := second
  dsimp only at hElements hIndex hFlagged
  subst hElements hIndex hFlagged
  rfl

end Layout

/-- Tallies whose formulas are those with a value and those without are told apart by the
other counts. -/
theorem Tally.eq_of_counts {first second : Tally}
    (hFirst : first.formulas = first.calculated + first.failed)
    (hSecond : second.formulas = second.calculated + second.failed)
    (hCalculated : first.calculated = second.calculated)
    (hFailed : first.failed = second.failed) (hSkipped : first.skipped = second.skipped) :
    first = second := by
  have hFormulas : first.formulas = second.formulas := by
    rw [hFirst, hSecond, hCalculated, hFailed]
  obtain ⟨formulas, calculated, failed, skipped⟩ := first
  obtain ⟨formulas', calculated', failed', skipped'⟩ := second
  dsimp only at hFormulas hCalculated hFailed hSkipped
  subst hFormulas hCalculated hFailed hSkipped
  rfl

namespace Sheet

/-! ## Outcomes and results -/

/-- A path without a formula cell is skipped. -/
theorem outcome_of_none {sheet : Sheet} {path : Path} (h : sheet.formulaAt? path = none)
    (filter : Filter) : sheet.outcome filter path = .skipped := by
  have hResult : sheet.resultAt? filter path = none := by
    rw [resultAt?, h]
    rfl
  rw [outcome_eq, hResult]
  cases sheet.itemAt? path <;> rfl

/-- The outcome at a formula cell is the result of its formula. -/
theorem outcome_of_formula? {sheet : Sheet} {path : Path} {item : Item} {text : String}
    (hItem : sheet.itemAt? path = some item) (hFormula : item.formula? = some text)
    (filter : Filter) :
    sheet.outcome filter path =
      match (sheet.scope filter path).evaluateText text with
      | .ok x => .value x
      | .error _ => .failed item.title := by
  have hText : sheet.formulaAt? path = some text := by
    rw [formulaAt?, hItem]
    exact hFormula
  rw [outcome_eq, hItem, resultAt?_of_formulaAt? hText]
  cases (sheet.scope filter path).evaluateText text <;> rfl

/-- The cell at a path has a value. -/
def hasValue (sheet : Sheet) (filter : Filter) (path : Path) : Bool :=
  (sheet.resultAt? filter path).any Except.isOk

/-- The cell at a path is a formula without a value. -/
def fails (sheet : Sheet) (filter : Filter) (path : Path) : Bool :=
  (sheet.resultAt? filter path).any fun result => !result.isOk

/-- There is no formula cell at a path. -/
def lacksFormula (sheet : Sheet) (path : Path) : Bool := (sheet.formulaAt? path).isNone

/-- A path has a value, or fails, or has no formula. -/
theorem countP_results (sheet : Sheet) (filter : Filter) (paths : List Path) :
    paths.countP (sheet.hasValue filter) + paths.countP (sheet.fails filter) +
      paths.countP sheet.lacksFormula = paths.length := by
  induction paths with
  | nil => rfl
  | cons path paths ih =>
      simp only [List.countP_cons, List.length_cons]
      have hOne : (if sheet.hasValue filter path then 1 else 0) +
          (if sheet.fails filter path then 1 else 0) +
          (if sheet.lacksFormula path then 1 else 0) = 1 := by
        unfold hasValue fails lacksFormula resultAt?
        cases sheet.formulaAt? path with
        | none => rfl
        | some text =>
            rw [Option.map_some]
            cases (sheet.scope filter path).evaluateText text <;> rfl
      omega

/-! ## The run -/

/-- An element after its own path has been recalculated. -/
def shown (sheet : Sheet) (filter : Filter) (element : Element) : Element :=
  match (sheet.outcome filter element.path).text? with
  | none => element
  | some text => { element with override := some text }

@[simp] theorem shown_path (sheet : Sheet) (filter : Filter) (element : Element) :
    (sheet.shown filter element).path = element.path := by
  unfold shown
  split <;> rfl

@[simp] theorem shown_bare (sheet : Sheet) (filter : Filter) (element : Element) :
    (sheet.shown filter element).bare = element.bare := by
  unfold shown
  split <;> rfl

/-- An element after some paths have been recalculated. -/
def shownOn (sheet : Sheet) (filter : Filter) (paths : List Path) (element : Element) : Element :=
  if element.path ∈ paths then sheet.shown filter element else element

@[simp] theorem shownOn_path (sheet : Sheet) (filter : Filter) (paths : List Path)
    (element : Element) : (sheet.shownOn filter paths element).path = element.path := by
  unfold shownOn
  split
  · exact sheet.shown_path filter element
  · rfl

/-- The state of a recalculation after some paths: their elements show what became of
them on the sheet as it was at first, nothing else has changed, each path counts for its
result, and the formulas among them are as many as those with a value and those without. -/
structure RecalculatedOn (sheet : Sheet) (filter : Filter) (paths : List Path)
    (state : Sheet × Tally) : Prop where
  items : state.1.items = sheet.items
  index : state.1.layout.index = sheet.layout.index
  flagged : state.1.layout.flagged = sheet.layout.flagged
  elements : state.1.layout.elements = sheet.layout.elements.map (sheet.shownOn filter paths)
  calculated : state.2.calculated = paths.countP (sheet.hasValue filter)
  failed : state.2.failed = paths.countP (sheet.fails filter)
  skipped : state.2.skipped = paths.countP sheet.lacksFormula
  formulas : state.2.formulas = state.2.calculated + state.2.failed

namespace RecalculatedOn

variable {sheet : Sheet} {filter : Filter} {paths : List Path} {state : Sheet × Tally}

theorem start (sheet : Sheet) (filter : Filter) : sheet.RecalculatedOn filter [] (sheet, {}) where
  items := rfl
  index := rfl
  flagged := rfl
  elements := by
    have hSame : sheet.shownOn filter [] = id := by
      funext element
      simp [shownOn]
    rw [hSame, Array.map_id]
  calculated := rfl
  failed := rfl
  skipped := rfl
  formulas := rfl

/-- What has been written is not seen. -/
theorem bareElements (h : sheet.RecalculatedOn filter paths state) :
    state.1.layout.bareElements = sheet.layout.bareElements := by
  apply Layout.bareElements_of_elements_map h.elements
  intro element
  unfold shownOn
  split
  · exact sheet.shown_bare filter element
  · rfl

/-- Every further path comes out as it would on the first sheet. -/
theorem outcome_eq (h : sheet.RecalculatedOn filter paths state) (filter' : Filter)
    (path : Path) : state.1.outcome filter' path = sheet.outcome filter' path := by
  have hView := (Layout.SameView.of_bareElements h.bareElements filter').outcome_eq
    sheet.items path
  rw [← hView, ← h.items]

/-- The elements after one more path. -/
theorem elements_show? (h : sheet.RecalculatedOn filter paths state) (path : Path) :
    (state.1.show? path (sheet.outcome filter path).text?).layout.elements =
      sheet.layout.elements.map (sheet.shownOn filter (paths ++ [path])) := by
  have hStep : (state.1.show? path (sheet.outcome filter path).text?).layout.elements =
      state.1.layout.elements.map fun element =>
        if element.path = path then
          match (sheet.outcome filter path).text? with
          | none => element
          | some text => { element with override := some text }
        else element := by
    cases (sheet.outcome filter path).text? with
    | none =>
        show state.1.layout.elements = _
        simp
    | some text => exact Layout.elements_setOverride _ _ _
  rw [hStep, h.elements, Array.map_map]
  congr 1
  funext element
  simp only [Function.comp_apply, shownOn_path]
  by_cases hPath : element.path = path
  · subst hPath
    rw [if_pos rfl, shownOn, shownOn, if_pos (by simp : element.path ∈ paths ++ [element.path])]
    split
    · rename_i hText
      unfold shown
      rw [hText]
      split <;> rfl
    · rename_i text hText
      unfold shown
      rw [hText]
      split <;> rfl
  · rw [if_neg hPath]
    simp [shownOn, hPath]

/-- The counts after one more path. -/
theorem count_outcome (h : sheet.RecalculatedOn filter paths state) (path : Path) :
    (state.2.count (sheet.outcome filter path)).calculated =
        (paths ++ [path]).countP (sheet.hasValue filter) ∧
      (state.2.count (sheet.outcome filter path)).failed =
        (paths ++ [path]).countP (sheet.fails filter) ∧
      (state.2.count (sheet.outcome filter path)).skipped =
        (paths ++ [path]).countP sheet.lacksFormula := by
  simp only [List.countP_append, List.countP_singleton]
  rw [← h.calculated, ← h.failed, ← h.skipped]
  unfold hasValue fails lacksFormula
  cases hText : sheet.formulaAt? path with
  | none =>
      rw [outcome_of_none hText, resultAt?, hText]
      exact ⟨rfl, rfl, rfl⟩
  | some text =>
      obtain ⟨item, hItem, hFormula⟩ := Option.bind_eq_some_iff.mp hText
      rw [outcome_of_formula? hItem hFormula, resultAt?_of_formulaAt? hText]
      cases (sheet.scope filter path).evaluateText text <;> exact ⟨rfl, rfl, rfl⟩

/-- **Step**: recalculating one more path extends the state by that path. -/
theorem step (h : sheet.RecalculatedOn filter paths state) (path : Path) :
    sheet.RecalculatedOn filter (paths ++ [path]) (recalculateCell filter state path) := by
  have hCell : recalculateCell filter state path =
      (state.1.show? path (sheet.outcome filter path).text?,
        state.2.count (sheet.outcome filter path)) := by
    unfold recalculateCell
    rw [h.outcome_eq filter path]
  have hCounted := h.count_outcome path
  rw [hCell]
  exact
    { items := by
        rw [← h.items]
        cases (sheet.outcome filter path).text? <;> rfl
      index := by
        rw [← h.index]
        cases (sheet.outcome filter path).text? with
        | none => rfl
        | some text => exact Layout.index_setOverride _ _ _
      flagged := by
        rw [← h.flagged]
        cases (sheet.outcome filter path).text? with
        | none => rfl
        | some text => exact Layout.flagged_setOverride _ _ _
      elements := h.elements_show? path
      calculated := hCounted.1
      failed := hCounted.2.1
      skipped := hCounted.2.2
      formulas := Tally.formulas_count h.formulas _ }

/-- **Run**: recalculating a list of paths extends the state by the list. -/
theorem run (h : sheet.RecalculatedOn filter paths state) (order : List Path) :
    sheet.RecalculatedOn filter (paths ++ order) (order.foldl (recalculateCell filter) state) := by
  induction order generalizing paths state with
  | nil => simpa using h
  | cons path order ih =>
      have hNext := ih (h.step path)
      rwa [List.append_assoc, List.singleton_append] at hNext

end RecalculatedOn

theorem recalculatedOn_recalculateIn (sheet : Sheet) (filter : Filter) (order : List Path) :
    sheet.RecalculatedOn filter order (sheet.recalculateIn filter order) := by
  simpa [recalculateIn] using (RecalculatedOn.start sheet filter).run order

/-! ## The whole recalculation -/

/-- What it means that all flagged cells were recalculated at once: every one of them
shows its own result on the sheet as it was before, and nothing else has changed. -/
structure IsSimultaneous (before : Sheet) (filter : Filter) (after : Sheet) (tally : Tally) :
    Prop where
  items : after.items = before.items
  flagged : after.layout.flagged = before.layout.flagged
  /-- The elements, their order and all of their fields but the overrides are as before. -/
  bareElements : after.layout.bareElements = before.layout.bareElements
  /-- A flagged formula with a value shows the value. -/
  value : ∀ path ∈ before.layout.flagged, ∀ text x, before.formulaAt? path = some text →
    (before.scope filter path).evaluateText text = .ok x →
      after.layout.override? path = some (displayText x)
  /-- A flagged formula without a value shows the title of its note. -/
  failure : ∀ path ∈ before.layout.flagged, ∀ item text fault, before.itemAt? path = some item →
    item.formula? = some text → (before.scope filter path).evaluateText text = .error fault →
      after.layout.override? path = some item.title
  /-- Every other path shows what it showed before. -/
  others : ∀ path, path ∉ before.layout.flagged ∨ before.formulaAt? path = none →
    after.layout.override? path = before.layout.override? path
  calculated : tally.calculated = before.layout.flagged.countP (before.hasValue filter)
  failed : tally.failed = before.layout.flagged.countP (before.fails filter)
  skipped : tally.skipped = before.layout.flagged.countP before.lacksFormula
  formulas : tally.formulas = tally.calculated + tally.failed
  total : tally.formulas + tally.skipped = before.layout.flagged.length

namespace RecalculatedOn

variable {sheet : Sheet} {filter : Filter} {paths : List Path} {state : Sheet × Tally}

/-- What is shown at a path. -/
theorem override?_eq (h : sheet.RecalculatedOn filter paths state) (path : Path) :
    state.1.layout.override? path =
      if path ∈ paths then
        ((sheet.outcome filter path).text?).or (sheet.layout.override? path)
      else sheet.layout.override? path := by
  unfold Layout.override?
  rw [Layout.elementAt?_of_elements_map h.elements (sheet.shownOn_path filter paths)]
  cases hAt : sheet.layout.elementAt? path with
  | none =>
      have hSkipped : sheet.outcome filter path = .skipped := by
        unfold outcome
        rw [hAt]
      rw [hSkipped]
      split <;> rfl
  | some element =>
      have hPath := Layout.path_of_elementAt? hAt
      show (sheet.shownOn filter paths element).override = _
      unfold shownOn
      rw [hPath]
      split
      · unfold shown
        rw [hPath]
        cases (sheet.outcome filter path).text? <;> rfl
      · rfl

/-- **A run over all flags** is a simultaneous recalculation. -/
theorem isSimultaneous (h : sheet.RecalculatedOn filter sheet.layout.flagged state) :
    sheet.IsSimultaneous filter state.1 state.2 where
  items := h.items
  flagged := h.flagged
  bareElements := h.bareElements
  value path hFlagged text x hText hValue := by
    obtain ⟨item, hItem, hFormula⟩ := Option.bind_eq_some_iff.mp hText
    rw [h.override?_eq, if_pos hFlagged, outcome_of_formula? hItem hFormula, hValue]
    rfl
  failure path hFlagged item text fault hItem hFormula hFault := by
    rw [h.override?_eq, if_pos hFlagged, outcome_of_formula? hItem hFormula, hFault]
    rfl
  others path hOther := by
    rw [h.override?_eq]
    rcases hOther with hUnflagged | hNone
    · rw [if_neg hUnflagged]
    · rw [outcome_of_none hNone]
      split <;> rfl
  calculated := h.calculated
  failed := h.failed
  skipped := h.skipped
  formulas := h.formulas
  total := by
    rw [h.formulas, h.calculated, h.failed, h.skipped]
    exact sheet.countP_results filter sheet.layout.flagged

/-- Runs over the same paths in any two orders end in the same state. -/
theorem eq_of_perm {paths' : List Path} {state' : Sheet × Tally} (hPerm : paths.Perm paths')
    (h : sheet.RecalculatedOn filter paths state)
    (h' : sheet.RecalculatedOn filter paths' state') : state = state' := by
  obtain ⟨⟨items, layout⟩, tally⟩ := state
  obtain ⟨⟨items', layout'⟩, tally'⟩ := state'
  have hItems : items = items' := h.items.trans h'.items.symm
  have hShown : sheet.shownOn filter paths = sheet.shownOn filter paths' := by
    funext element
    simp only [shownOn, hPerm.mem_iff]
  have hLayout : layout = layout' := by
    apply Layout.eq_of_fields
    · exact h.elements.trans (hShown ▸ h'.elements.symm)
    · exact h.index.trans h'.index.symm
    · exact h.flagged.trans h'.flagged.symm
  have hTally : tally = tally' := by
    apply Tally.eq_of_counts h.formulas h'.formulas
    · exact h.calculated.trans ((hPerm.countP_eq _).trans h'.calculated.symm)
    · exact h.failed.trans ((hPerm.countP_eq _).trans h'.failed.symm)
    · exact h.skipped.trans ((hPerm.countP_eq _).trans h'.skipped.symm)
  rw [hItems, hLayout, hTally]

end RecalculatedOn

/-- **One simultaneous update**: whatever the order in which the flagged paths are
recalculated, the sheet and the counts are the same, and they are those of a
recalculation of all flagged cells at once. -/
theorem recalculateIn_isSimultaneous (sheet : Sheet) (filter : Filter) :
    ∃ after tally, sheet.IsSimultaneous filter after tally ∧
      ∀ order, order.Perm sheet.layout.flagged →
        sheet.recalculateIn filter order = (after, tally) := by
  have hRun := recalculatedOn_recalculateIn sheet filter sheet.layout.flagged
  refine ⟨_, _, hRun.isSimultaneous, ?_⟩
  intro order hOrder
  exact (recalculatedOn_recalculateIn sheet filter order).eq_of_perm hOrder hRun

end Sheet

end NoteSheet
