import NoteSheet.Proofs.Cells

/-!
# Overrides are written, not read

Neither a search for neighbors nor a formula looks at the text that is shown in place
of a title. Everything a formula sees of a layout is its elements without their
overrides, and writing an override leaves those as they were.

Main statements: `Layout.elements_setOverride` (what a write changes),
`Layout.SameView.of_bareElements` (references land alike in layouts that differ in their
overrides) and `Layout.SameView.evaluateText_eq` (formulas have the same results there).
-/

namespace NoteSheet

/-- An element without its override. -/
def Element.bare (element : Element) : Element := { element with override := none }

@[simp] theorem Element.bare_path (element : Element) : element.bare.path = element.path := rfl

/-- A search lands on an element whatever the elements involved are made to show. -/
theorem Element.isCandidate_bare (origin candidate : Element) (direction : Direction)
    (filter : Filter) :
    origin.bare.isCandidate candidate.bare direction filter =
      origin.isCandidate candidate direction filter := by
  cases filter <;> rfl

/-- A search for the least distance commutes with a change of the candidates that keeps
their distances. -/
theorem nearest?_map {α β : Type} {f : α → β} {distance : α → Float} {distance' : β → Float}
    (hDistance : ∀ a, distance' (f a) = distance a) (candidates : List α) :
    (nearest? distance candidates).map f = nearest? distance' (candidates.map f) := by
  have hFold (best : Option (α × Float)) :
      (candidates.foldl (nearer distance) best).map (Prod.map f id) =
        (candidates.map f).foldl (nearer distance') (best.map (Prod.map f id)) := by
    induction candidates generalizing best with
    | nil => rfl
    | cons candidate candidates ih =>
        rw [List.foldl_cons, ih, List.map_cons, List.foldl_cons]
        congr 1
        unfold nearer
        cases best with
        | none => simp [hDistance]
        | some pair =>
            simp only [hDistance, Option.map_some, Prod.map_snd, id_eq]
            split <;> rfl
  have hNone := hFold none
  unfold nearest?
  rw [← Option.map_none (f := Prod.map f id), ← hNone, Option.map_map, Option.map_map]
  rfl

namespace Layout

/-! ## What a search sees -/

/-- The elements in layout order, without their overrides. -/
def bareElements (layout : Layout) : List Element := layout.elements.toList.map Element.bare

theorem elementAt?_bare (layout : Layout) (path : Path) :
    (layout.elementAt? path).map Element.bare =
      layout.bareElements.find? fun element => element.path == path := by
  rw [elementAt?_eq_find?, bareElements, List.find?_map]
  rfl

theorem elementFor?_bare (layout : Layout) (id : Uid) :
    (layout.elementFor? id).map Element.bare =
      layout.bareElements.find? fun element => element.item == id := by
  rw [elementFor?, bareElements, List.find?_map]
  rfl

theorem candidates_bare (layout : Layout) (origin : Element) (direction : Direction)
    (filter : Filter) :
    (layout.candidates origin direction filter).map Element.bare =
      (layout.bareElements.filter fun element => element.path.isSibling origin.path).filter
        fun element => origin.bare.isCandidate element direction filter := by
  unfold candidates siblings bareElements
  rw [List.filter_map, List.filter_map]
  congr 1
  apply List.filter_congr
  intro element _
  exact (origin.isCandidate_bare element direction filter).symm

/-- A neighbor is found among the elements without their overrides. -/
theorem neighbor?_bare (layout : Layout) (direction : Direction) (filter : Filter)
    (path : Path) :
    layout.neighbor? direction filter path =
      (layout.bareElements.find? fun element => element.path == path).bind fun origin =>
        (nearest? origin.distance
          ((layout.bareElements.filter fun element => element.path.isSibling origin.path).filter
            fun element => origin.isCandidate element direction filter)).map Element.path := by
  rw [← elementAt?_bare]
  unfold neighbor?
  cases layout.elementAt? path with
  | none => rfl
  | some origin =>
      rw [Option.map_some, Option.bind_some]
      have hDistance (candidate : Element) :
          origin.bare.distance candidate.bare = origin.distance candidate := rfl
      have hNearest := nearest?_map hDistance (layout.candidates origin direction filter)
      rw [candidates_bare] at hNearest
      rw [Element.bare_path, ← hNearest, Option.map_map]
      show ((nearest? origin.distance (layout.candidates origin direction filter)).bind
        fun found => some found.path) = _
      cases nearest? origin.distance (layout.candidates origin direction filter) <;> rfl

/-! ## What a formula sees -/

/-- References land alike in two layouts. -/
structure SameView (first second : Layout) (filter : Filter) : Prop where
  hop?_eq : ∀ direction steps path,
    first.hop? direction filter steps path = second.hop? direction filter steps path
  item_eq : ∀ path,
    (first.elementAt? path).map Element.item = (second.elementAt? path).map Element.item
  path_eq : ∀ id,
    (first.elementFor? id).map Element.path = (second.elementFor? id).map Element.path

theorem hop?_eq_of_neighbor? {first second : Layout} {direction : Direction} {filter : Filter}
    (h : ∀ path, first.neighbor? direction filter path = second.neighbor? direction filter path)
    (steps : Nat) (path : Path) :
    first.hop? direction filter steps path = second.hop? direction filter steps path := by
  induction steps generalizing path with
  | zero => rfl
  | succ steps ih =>
      unfold hop?
      rw [h path]
      cases second.neighbor? direction filter path with
      | none => rfl
      | some next => exact ih next

/-- **Blindness**: layouts that differ in their overrides only are seen alike. -/
theorem SameView.of_bareElements {first second : Layout}
    (h : first.bareElements = second.bareElements) (filter : Filter) :
    first.SameView second filter where
  hop?_eq direction steps path := by
    apply hop?_eq_of_neighbor?
    intro path
    rw [neighbor?_bare, neighbor?_bare, h]
  item_eq path := by
    have hAt := elementAt?_bare first path
    rw [h, ← elementAt?_bare second path] at hAt
    have hItems := congrArg (Option.map Element.item) hAt
    rwa [Option.map_map, Option.map_map] at hItems
  path_eq id := by
    have hFor := elementFor?_bare first id
    rw [h, ← elementFor?_bare second id] at hFor
    have hPaths := congrArg (Option.map Element.path) hFor
    rwa [Option.map_map, Option.map_map] at hPaths

namespace SameView

variable {first second : Layout} {filter : Filter}

theorem target_eq (h : first.SameView second filter) (items : ItemStore) (origin : Path)
    (entered : List Uid) (ref : Reference) :
    (Sheet.scope ⟨items, first⟩ filter origin entered).target ref =
      (Sheet.scope ⟨items, second⟩ filter origin entered).target ref := by
  cases ref with
  | absolute id =>
      have hPath := h.path_eq id
      unfold Scope.target Scope.absoluteTarget
      dsimp only
      cases items.get? id with
      | none => rfl
      | some item =>
          cases items.formulaNote? id with
          | none => rfl
          | some note =>
              cases hFirst : first.elementFor? id with
              | none =>
                  rw [hFirst] at hPath
                  rw [Option.map_eq_none_iff.mp hPath.symm]
              | some element =>
                  rw [hFirst, Option.map_some] at hPath
                  obtain ⟨element', hSecond, hSame⟩ := Option.map_eq_some_iff.mp hPath.symm
                  rw [hSecond]
                  dsimp only
                  rw [hSame]
  | relative direction steps =>
      unfold Scope.target Scope.relativeTarget
      dsimp only
      rw [h.hop?_eq]
      cases second.hop? direction filter steps origin with
      | none => rfl
      | some path =>
          have hItem := h.item_eq path
          dsimp only
          cases hFirst : first.elementAt? path with
          | none =>
              rw [hFirst] at hItem
              rw [Option.map_eq_none_iff.mp hItem.symm]
          | some element =>
              rw [hFirst, Option.map_some] at hItem
              obtain ⟨element', hSecond, hSame⟩ := Option.map_eq_some_iff.mp hItem.symm
              rw [hSecond]
              dsimp only
              rw [hSame]
              cases items.formulaNote? element.item <;> rfl

/-- A formula has the same result when the cells it may refer to read as the same. -/
theorem evaluateText_eq_of_read (h : first.SameView second filter) {items : ItemStore}
    {origin : Path} {entered : List Uid}
    (hRead : ∀ target : Target items,
      (Sheet.scope ⟨items, first⟩ filter origin entered).read target =
        (Sheet.scope ⟨items, second⟩ filter origin entered).read target) (text : String) :
    (Sheet.scope ⟨items, first⟩ filter origin entered).evaluateText text =
      (Sheet.scope ⟨items, second⟩ filter origin entered).evaluateText text := by
  apply Related.eq
  apply Scope.evaluateText_related .eq
  intro ref _
  rw [Scope.readReference_eq, Scope.readReference_eq, h.target_eq]
  cases (Sheet.scope ⟨items, second⟩ filter origin entered).target ref with
  | error fault => exact .error fault
  | ok target => exact .ok (hRead target)

/-- A cell reads as the same number. -/
theorem read_eq (h : first.SameView second filter) (items : ItemStore) (origin : Path)
    (entered : List Uid) (target : Target items) :
    (Sheet.scope ⟨items, first⟩ filter origin entered).read target =
      (Sheet.scope ⟨items, second⟩ filter origin entered).read target := by
  induction entered using Sheet.entered_induction ⟨items, first⟩ generalizing origin target with
  | step entered ih =>
      cases target with
      | number value => rw [Scope.read_number, Scope.read_number]
      | formula note path =>
          by_cases hEntered : note.id ∈ entered
          · rw [Sheet.read_note_of_mem origin hEntered, Sheet.read_note_of_mem origin hEntered]
          · rw [Sheet.read_note_of_not_mem origin hEntered,
              Sheet.read_note_of_not_mem origin hEntered,
              h.evaluateText_eq_of_read (ih note hEntered path)]

/-- **Same results**: a formula has the same result in layouts that are seen alike. -/
theorem evaluateText_eq (h : first.SameView second filter) (items : ItemStore) (origin : Path)
    (entered : List Uid) (text : String) :
    (Sheet.scope ⟨items, first⟩ filter origin entered).evaluateText text =
      (Sheet.scope ⟨items, second⟩ filter origin entered).evaluateText text :=
  h.evaluateText_eq_of_read (h.read_eq items origin entered) text

/-- The same item is shown at a path. -/
theorem itemAt?_eq (h : first.SameView second filter) (items : ItemStore) (path : Path) :
    Sheet.itemAt? ⟨items, first⟩ path = Sheet.itemAt? ⟨items, second⟩ path := by
  have hBind := congrArg (Option.bind · items.get?) (h.item_eq path)
  rwa [Option.bind_map, Option.bind_map] at hBind

/-- The cell at a path has the same result. -/
theorem resultAt?_eq (h : first.SameView second filter) (items : ItemStore) (path : Path) :
    Sheet.resultAt? ⟨items, first⟩ filter path = Sheet.resultAt? ⟨items, second⟩ filter path := by
  unfold Sheet.resultAt? Sheet.formulaAt?
  rw [h.itemAt?_eq, funext (h.evaluateText_eq items path [])]

/-- A flagged path comes out the same. -/
theorem outcome_eq (h : first.SameView second filter) (items : ItemStore) (path : Path) :
    Sheet.outcome ⟨items, first⟩ filter path = Sheet.outcome ⟨items, second⟩ filter path := by
  rw [Sheet.outcome_eq, Sheet.outcome_eq, h.itemAt?_eq, h.resultAt?_eq]

end SameView

/-! ## What a write changes -/

/-- **Writes**: an override is written to the element at its path and nowhere else. -/
theorem elements_setOverride (layout : Layout) (path : Path) (text : String) :
    (layout.setOverride path text).elements = layout.elements.map fun element =>
      if element.path = path then { element with override := some text } else element := by
  apply Array.ext_getElem?
  intro i
  rw [Array.getElem?_map]
  have hSpec := layout.index_spec path i
  unfold setOverride
  split
  · rename_i hNone
    cases hAt : layout.elements[i]? with
    | none => rfl
    | some element =>
        have hPath : element.path ≠ path := by
          intro hPath
          have hFound := hSpec.mpr (by rw [hAt, Option.map_some, hPath])
          rw [hNone] at hFound
          cases hFound
        rw [Option.map_some, if_neg hPath]
  · rename_i j hFound
    rw [Array.getElem?_modify]
    cases hAt : layout.elements[i]? with
    | none =>
        rw [Option.map_none, Option.map_none]
        split <;> rfl
    | some element =>
        rw [hFound, hAt, Option.map_some, Option.some_inj, Option.some_inj] at hSpec
        rw [Option.map_some, Option.map_some]
        by_cases hPath : element.path = path
        · rw [if_pos (hSpec.mpr hPath), if_pos hPath]
        · rw [if_neg (mt hSpec.mp hPath), if_neg hPath]

theorem flagged_setOverride (layout : Layout) (path : Path) (text : String) :
    (layout.setOverride path text).flagged = layout.flagged := by
  unfold setOverride
  split <;> rfl

theorem index_setOverride (layout : Layout) (path : Path) (text : String) :
    (layout.setOverride path text).index = layout.index := by
  unfold setOverride
  split <;> rfl

/-- Changing elements in place changes what is found at a path. -/
theorem elementAt?_of_elements_map {before after : Layout} {change : Element → Element}
    (hElements : after.elements = before.elements.map change)
    (hPath : ∀ element, (change element).path = element.path) (path : Path) :
    after.elementAt? path = (before.elementAt? path).map change := by
  rw [elementAt?_eq_find?, elementAt?_eq_find?, hElements, Array.toList_map, List.find?_map]
  congr 2
  funext element
  simp [hPath]

/-- Changing overrides leaves what is seen of a layout as it was. -/
theorem bareElements_of_elements_map {before after : Layout} {change : Element → Element}
    (hElements : after.elements = before.elements.map change)
    (hBare : ∀ element, (change element).bare = element.bare) :
    after.bareElements = before.bareElements := by
  unfold bareElements
  rw [hElements, Array.toList_map, List.map_map]
  apply List.map_congr_left
  intro element _
  exact hBare element

end Layout

end NoteSheet
