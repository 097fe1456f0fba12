import Mathlib.Data.List.Nodup
import NoteSheet.Proofs.Recalculation

/-!
# Layouts after any history

A layout keeps its elements twice: in their order, and through an index from paths to
positions. It is changed by placing elements, flagging paths, writing overrides and
recalculating. Here a history of such operations is data (`Layout.Operation`), and a layout
is compared with the list of the elements that a history has placed: of several elements
for one path, the first (`Layout.placements`).

The invariant of a history is `Layout.Holds`: the layout holds those elements in that order,
whatever is shown on them. One operation keeps it (`Holds.step`), hence a whole history
does (`holds_run`). Main statement: `run_isFaithful`, which says what a layout answers after
any history.
-/

namespace NoteSheet.Layout

/-! ## What the index knows -/

/-- A path is in the index when an element is placed there. -/
theorem mem_index_iff {layout : Layout} {path : Path} :
    path ∈ layout.index ↔ path ∈ layout.elements.toList.map Element.path := by
  rw [Std.TreeMap.mem_iff_isSome_getElem?, Option.isSome_iff_exists]
  constructor
  · rintro ⟨i, hIndex⟩
    obtain ⟨element, hElement, hPath⟩ :=
      Option.map_eq_some_iff.mp ((layout.index_spec path i).mp hIndex)
    exact List.mem_map.mpr ⟨element, by simpa using Array.mem_of_getElem? hElement, hPath⟩
  · intro hMem
    obtain ⟨element, hElement, rfl⟩ := List.mem_map.mp hMem
    obtain ⟨i, hI⟩ := Array.getElem?_of_mem (by simpa using hElement)
    exact ⟨i, (layout.index_spec element.path i).mpr (by rw [hI]; rfl)⟩

/-- No two elements are placed at one path. -/
theorem nodup_paths (layout : Layout) : (layout.elements.toList.map Element.path).Nodup := by
  rw [List.nodup_iff_getElem?_ne_getElem?]
  intro i j hLt hLength hSame
  obtain ⟨path, hJ⟩ : ∃ path, (layout.elements.toList.map Element.path)[j]? = some path :=
    ⟨_, List.getElem?_eq_getElem hLength⟩
  have hI := hSame.trans hJ
  rw [List.getElem?_map, Array.getElem?_toList] at hI hJ
  have hIndexI := (layout.index_spec path i).mpr hI
  have hIndexJ := (layout.index_spec path j).mpr hJ
  rw [hIndexI] at hIndexJ
  exact absurd (Option.some.inj hIndexJ) (Nat.ne_of_lt hLt)

/-! ## What the operations change -/

theorem elements_mark (layout : Layout) (path : Path) :
    (layout.mark path).elements = layout.elements := by
  unfold mark
  split <;> rfl

theorem elements_markAll (layout : Layout) (paths : List Path) :
    (layout.markAll paths).elements = layout.elements := by
  unfold markAll
  induction paths generalizing layout with
  | nil => rfl
  | cons path paths ih => rw [List.foldl_cons, ih, elements_mark]

theorem bareElements_setOverride (layout : Layout) (path : Path) (text : String) :
    (layout.setOverride path text).bareElements = layout.bareElements := by
  apply bareElements_of_elements_map (layout.elements_setOverride path text)
  intro element
  split <;> rfl

/-- **Refused**: where the path is taken, the layout is left as it was. -/
theorem place_of_mem {layout : Layout} {element : Element}
    (hTaken : element.path ∈ layout.elements.toList.map Element.path) :
    layout.place element = (.error (.duplicateElement element.path.text), layout) := by
  unfold place
  rw [dif_pos (mem_index_iff.mpr hTaken)]

/-- An element with a path of its own is placed behind all others. -/
theorem place_of_not_mem {layout : Layout} {element : Element}
    (hNew : element.path ∉ layout.elements.toList.map Element.path) :
    ∃ next, layout.place element = (.ok (), next) ∧
      next.elements = layout.elements.push element ∧ next.flagged = layout.flagged := by
  unfold place
  rw [dif_neg (mt mem_index_iff.mp hNew)]
  exact ⟨_, rfl, rfl, rfl⟩

theorem insert_of_mem {layout : Layout} {element : Element}
    (hTaken : element.path ∈ layout.elements.toList.map Element.path) :
    layout.insert element = .error (.duplicateElement element.path.text) := by
  unfold insert
  rw [place_of_mem hTaken]
  rfl

theorem insert_of_not_mem {layout : Layout} {element : Element}
    (hNew : element.path ∉ layout.elements.toList.map Element.path) :
    ∃ next, layout.insert element = .ok next ∧
      next.elements = layout.elements.push element ∧ next.flagged = layout.flagged := by
  obtain ⟨next, hPlace, hNext⟩ := place_of_not_mem hNew
  refine ⟨next, ?_, hNext⟩
  unfold insert
  rw [hPlace]
  rfl

/-! ## Histories -/

/-- Flags every element that shows a formula note of a list. -/
def markFormulasAmong (layout : Layout) (items : List Item) : Layout :=
  let ids := (items.filter (·.isFormula)).map Item.id
  layout.markAll ((layout.elements.toList.filter fun element => element.item ∈ ids).map
    Element.path)

/-- Flagging the formula notes of a store is flagging them among its items. -/
theorem markFormulas_eq (layout : Layout) (store : ItemStore) :
    layout.markFormulas store = layout.markFormulasAmong store.items := rfl

/-- What can be done to a layout. A recalculation goes through some paths in some order. -/
inductive Operation where
  | insert (element : Element)
  | mark (path : Path)
  | markFormulas (items : List Item)
  | clearMarks
  | setOverride (path : Path) (text : String)
  | recalculate (items : ItemStore) (filter : Filter) (order : List Path)

/-- Whether an operation is refused, and the layout after it in either case. -/
def Operation.apply (layout : Layout) : Operation → Except Error Unit × Layout
  | .insert element => layout.place element
  | .mark path => (.ok (), layout.mark path)
  | .markFormulas items => (.ok (), layout.markFormulasAmong items)
  | .clearMarks => (.ok (), layout.clearMarks)
  | .setOverride path text => (.ok (), layout.setOverride path text)
  | .recalculate items filter order =>
      (.ok (), (Sheet.recalculateIn ⟨items, layout⟩ filter order).1.layout)

/-- The layout after an operation. -/
def after (layout : Layout) (operation : Operation) : Layout := (operation.apply layout).2

/-- **Refusals change nothing**: an operation that is refused leaves the layout as it was. -/
theorem after_of_refused {layout : Layout} {operation : Operation} {fault : Error}
    (h : (operation.apply layout).1 = .error fault) : layout.after operation = layout := by
  cases operation with
  | insert element =>
      by_cases hTaken : element.path ∈ layout.elements.toList.map Element.path
      · exact congrArg Prod.snd (place_of_mem hTaken)
      · obtain ⟨next, hPlace, -⟩ := place_of_not_mem hTaken
        have hOk : (layout.place element).1 = .ok () := congrArg Prod.fst hPlace
        rw [Operation.apply, hOk] at h
        cases h
  | mark | markFormulas | clearMarks | setOverride | recalculate => cases h

/-- The layout after a history that starts with nothing placed. -/
def run (history : List Operation) : Layout := history.foldl after empty

/-- One more element of a list that is to have one element for a path. -/
def keepNew (kept : List Element) (element : Element) : List Element :=
  if element.path ∈ kept.map Element.path then kept else kept ++ [element]

/-- What an operation adds to the elements that have been placed. -/
def placeNext (placed : List Element) : Operation → List Element
  | .insert element => keepNew placed element
  | _ => placed

/-- The elements that a history places, as they were placed: of several for one path, the
first. -/
def placements (history : List Operation) : List Element := history.foldl placeNext []

/-- A layout holds some elements in their order, whatever is shown on them. -/
def Holds (layout : Layout) (placed : List Element) : Prop :=
  layout.bareElements = placed.map Element.bare

namespace Holds

variable {layout : Layout} {placed : List Element}

/-- What overrides do not show in is the same of the layout and of what has been placed. -/
theorem map_eq {α : Type} {view : Element → α} (h : layout.Holds placed)
    (hView : ∀ element, view element.bare = view element) :
    layout.elements.toList.map view = placed.map view := by
  have hSame : view ∘ Element.bare = view := funext hView
  have hViews := congrArg (List.map view) h
  unfold bareElements at hViews
  rwa [List.map_map, List.map_map, hSame] at hViews

theorem paths_eq (h : layout.Holds placed) :
    layout.elements.toList.map Element.path = placed.map Element.path :=
  h.map_eq fun _ => rfl

/-- **Step**: an operation keeps the elements that are placed, and adds one if it places
one. -/
theorem step (h : layout.Holds placed) (operation : Operation) :
    (layout.after operation).Holds (placeNext placed operation) := by
  cases operation with
  | insert element =>
      by_cases hTaken : element.path ∈ placed.map Element.path
      · have hAfter : layout.after (.insert element) = layout :=
          congrArg Prod.snd (place_of_mem (h.paths_eq ▸ hTaken))
        rw [hAfter, placeNext, keepNew, if_pos hTaken]
        exact h
      · obtain ⟨next, hPlace, hElements, -⟩ := place_of_not_mem (h.paths_eq ▸ hTaken)
        have hAfter : layout.after (.insert element) = next := congrArg Prod.snd hPlace
        rw [hAfter, placeNext, keepNew, if_neg hTaken, Holds, bareElements, hElements,
          Array.toList_push, List.map_append, List.map_append, ← h]
        rfl
  | mark path =>
      show (layout.mark path).bareElements = _
      rw [bareElements, elements_mark]
      exact h
  | markFormulas items =>
      show (layout.markFormulasAmong items).bareElements = _
      rw [bareElements, markFormulasAmong, elements_markAll]
      exact h
  | clearMarks => exact h
  | setOverride path text => exact (layout.bareElements_setOverride path text).trans h
  | recalculate items filter order =>
      exact (Sheet.recalculatedOn_recalculateIn ⟨items, layout⟩ filter order).bareElements.trans h

end Holds

/-- **Run**: after a history, the layout holds the elements that the history has placed. -/
theorem holds_run (history : List Operation) : (run history).Holds (placements history) := by
  have hFrom {layout : Layout} {placed : List Element} (h : layout.Holds placed) :
      (history.foldl after layout).Holds (history.foldl placeNext placed) := by
    induction history generalizing layout placed with
    | nil => exact h
    | cons operation history ih => exact ih (h.step operation)
  have hEmpty : empty.Holds [] := rfl
  exact hFrom hEmpty

/-! ## What a layout answers -/

/-- What a layout answers that holds some elements: it looks paths, items and siblings up
as a search through its elements does, which are at different paths and in the order of
their placement, and it refuses exactly the paths that are taken. -/
structure IsFaithful (layout : Layout) (placed : List Element) : Prop where
  inOrder : layout.elements.toList.map Element.bare = placed.map Element.bare
  distinct : (layout.elements.toList.map Element.path).Nodup
  /-- A path finds through the index what a scan of the elements finds. -/
  scan : ∀ path, layout.elementAt? path = layout.elements.toList.find? (·.path == path)
  found : ∀ path element,
    layout.elementAt? path = some element ↔ element ∈ layout.elements ∧ element.path = path
  missing : ∀ path, layout.elementAt? path = none ↔ path ∉ placed.map Element.path
  siblings : ∀ path, layout.siblings path = layout.elements.toList.filter fun element =>
    element.path ≠ path ∧ element.path.parent? = path.parent?
  /-- An item is found at the first element that shows it. -/
  first : ∀ id element, layout.elementFor? id = some element ↔
    ∃ before behind, layout.elements.toList = before ++ element :: behind ∧
      element.item = id ∧ ∀ other ∈ before, other.item ≠ id
  unshown : ∀ id, layout.elementFor? id = none ↔ ∀ element ∈ placed, element.item ≠ id
  /-- A path that is taken is refused, and nothing changes. -/
  refused : ∀ element, element.path ∈ placed.map Element.path →
    layout.insert element = .error (.duplicateElement element.path.text) ∧
      layout.after (.insert element) = layout
  accepted : ∀ element, element.path ∉ placed.map Element.path →
    ∃ next, layout.insert element = .ok next ∧
      next.elements = layout.elements.push element ∧ next.flagged = layout.flagged

theorem elementAt?_eq_some_iff {layout : Layout} {path : Path} {element : Element} :
    layout.elementAt? path = some element ↔ element ∈ layout.elements ∧ element.path = path := by
  constructor
  · intro h
    exact ⟨mem_of_elementAt? h, path_of_elementAt? h⟩
  · rintro ⟨hMem, rfl⟩
    exact elementAt?_of_mem hMem

theorem elementAt?_eq_none_iff {layout : Layout} {path : Path} :
    layout.elementAt? path = none ↔ path ∉ layout.elements.toList.map Element.path := by
  rw [elementAt?_eq_find?, List.find?_eq_none]
  simp

/-- An item is found at the first element that shows it. -/
theorem elementFor?_eq_some_iff {layout : Layout} {id : Uid} {element : Element} :
    layout.elementFor? id = some element ↔
      ∃ before behind, layout.elements.toList = before ++ element :: behind ∧
        element.item = id ∧ ∀ other ∈ before, other.item ≠ id := by
  rw [elementFor?, List.find?_eq_some_iff_append]
  simp only [beq_iff_eq, Bool.not_eq_true', beq_eq_false_iff_ne]
  constructor
  · rintro ⟨hItem, before, behind, hElements, hBefore⟩
    exact ⟨before, behind, hElements, hItem, hBefore⟩
  · rintro ⟨before, behind, hElements, hItem, hBefore⟩
    exact ⟨hItem, before, behind, hElements, hBefore⟩

theorem elementFor?_eq_none_iff {layout : Layout} {id : Uid} :
    layout.elementFor? id = none ↔ id ∉ layout.elements.toList.map Element.item := by
  rw [elementFor?, List.find?_eq_none]
  simp

/-- **Faithful after any history**: the elements of a layout are those that were placed, in
the order of their placement and at different paths; a path, an item or the siblings of a
path are found as by a scan of them; and placing an element is refused exactly when its path
is taken, in which case the layout stays as it was. -/
theorem run_isFaithful (history : List Operation) :
    (run history).IsFaithful (placements history) := by
  have hHolds := holds_run history
  have hPaths := hHolds.paths_eq
  refine
    { inOrder := hHolds
      distinct := nodup_paths _
      scan := elementAt?_eq_find? _
      found := fun _ _ => elementAt?_eq_some_iff
      missing := fun _ => hPaths ▸ elementAt?_eq_none_iff
      siblings := ?_
      first := fun _ _ => elementFor?_eq_some_iff
      unshown := ?_
      refused := ?_
      accepted := fun _ hNew => insert_of_not_mem (hPaths ▸ hNew) }
  · intro path
    apply List.filter_congr
    intro element _
    rw [Bool.eq_iff_iff]
    simp [Path.isSibling]
  · intro id
    have hItems : (run history).elements.toList.map Element.item =
        (placements history).map Element.item := hHolds.map_eq fun _ => rfl
    rw [elementFor?_eq_none_iff, hItems]
    simp
  · intro element hTaken
    have hRefused : (Operation.apply (run history) (.insert element)).1 =
        .error (.duplicateElement element.path.text) :=
      congrArg Prod.fst (place_of_mem (hPaths ▸ hTaken))
    exact ⟨insert_of_mem (hPaths ▸ hTaken), after_of_refused hRefused⟩

end NoteSheet.Layout
