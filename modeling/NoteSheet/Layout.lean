import Std.Data.TreeMap
import NoteSheet.Box
import NoteSheet.ItemStore
import NoteSheet.Path

/-!
# Layouts

A layout places elements in a fixed order, one element per path, and keeps an
index from paths to positions so that an element is found without a search. It
also holds the set of paths flagged for evaluation, and each element may carry
an override: a text shown in place of the title of its item.

That the index and the elements agree is part of the type. Main statement:
`elementAt?_eq_find?` says that looking a path up through the index finds what
a scan of the elements finds.
-/

namespace NoteSheet

/-- An item placed on the page. -/
structure Element where
  path : Path
  /-- The item shown by this element. -/
  item : Uid
  /-- The kind under which the item is shown. -/
  kind : ItemKind
  /-- Position and size. -/
  box : Box
  /-- Whether this is a detached copy of an element shown elsewhere. -/
  popup : Bool := false
  /-- The text shown in place of the title; never written back to the item. -/
  override : Option String := none
deriving DecidableEq

/-- Elements in layout order, an index of their paths, and the flagged paths. -/
structure Layout where
  elements : Array Element
  index : Std.TreeMap Path Nat
  /-- The paths flagged for evaluation, each of them once. -/
  flagged : List Path
  index_spec : ∀ (path : Path) (i : Nat),
    index[path]? = some i ↔ elements[i]?.map Element.path = some path
  flagged_nodup : flagged.Nodup

namespace Layout

/-- The layout that places nothing. -/
def empty : Layout where
  elements := #[]
  index := ∅
  flagged := []
  index_spec := by simp
  flagged_nodup := List.nodup_nil

/-- The number of placed elements. -/
def size (layout : Layout) : Nat := layout.elements.size

/-- Whether nothing is placed. -/
def isEmpty (layout : Layout) : Bool := layout.elements.isEmpty

/-- The element at a path. -/
def elementAt? (layout : Layout) (path : Path) : Option Element := do
  let i ← layout.index[path]?
  layout.elements[i]?

/-- The siblings of a path, in layout order. -/
def siblings (layout : Layout) (path : Path) : List Element :=
  layout.elements.toList.filter fun element => element.path.isSibling path

/-- The first element, in layout order, that shows an item. -/
def elementFor? (layout : Layout) (item : Uid) : Option Element :=
  layout.elements.toList.find? (·.item == item)

/-- The override of the element at a path. -/
def override? (layout : Layout) (path : Path) : Option String := do
  let element ← layout.elementAt? path
  element.override

/-! ## Placing elements -/

/-- The index after `element` has been added behind all others. -/
theorem index_spec_push {elements : Array Element} {index : Std.TreeMap Path Nat}
    {element : Element}
    (hSpec : ∀ (path : Path) (i : Nat),
      index[path]? = some i ↔ elements[i]?.map Element.path = some path)
    (hNew : element.path ∉ index) (path : Path) (i : Nat) :
    (index.insert element.path elements.size)[path]? = some i ↔
      (elements.push element)[i]?.map Element.path = some path := by
  rw [Std.TreeMap.getElem?_insert, Array.getElem?_push]
  by_cases hPath : element.path = path
  · subst hPath
    rw [if_pos Std.ReflCmp.compare_self]
    constructor
    · intro hi
      rw [← Option.some.inj hi]
      simp
    · intro hi
      by_cases hLast : i = elements.size
      · rw [hLast]
      · rw [if_neg hLast] at hi
        have hFound := (hSpec element.path i).mpr hi
        exact absurd (Std.TreeMap.mem_iff_isSome_getElem?.mpr (by simp [hFound])) hNew
  · rw [if_neg (mt Std.LawfulEqCmp.eq_of_compare hPath)]
    by_cases hLast : i = elements.size
    · subst hLast
      simp [hSpec, hPath]
    · simp [hLast, hSpec]

/-- Places an element behind all others; a path that is taken is refused. Either way there
is a layout afterwards. -/
def place (layout : Layout) (element : Element) : Except Error Unit × Layout :=
  if hTaken : element.path ∈ layout.index then
    (.error (.duplicateElement element.path.text), layout)
  else
    (.ok (),
      { elements := layout.elements.push element
        index := layout.index.insert element.path layout.elements.size
        flagged := layout.flagged
        index_spec := index_spec_push layout.index_spec hTaken
        flagged_nodup := layout.flagged_nodup })

/-- The layout in which an element has been placed, for callers that do not go on after a
refusal. -/
def insert (layout : Layout) (element : Element) : Except Error Layout :=
  let (answer, after) := layout.place element
  answer.map fun _ => after

/-- Shows a text on the element at a path; without such an element nothing changes. -/
def setOverride (layout : Layout) (path : Path) (text : String) : Layout :=
  match layout.index[path]? with
  | none => layout
  | some i =>
      { elements := layout.elements.modify i fun element => { element with override := some text }
        index := layout.index
        flagged := layout.flagged
        index_spec := by
          intro other j
          rw [layout.index_spec, Array.getElem?_modify]
          split <;> simp [Option.map_map, Function.comp_def]
        flagged_nodup := layout.flagged_nodup }

/-! ## Flags -/

/-- Flags a path for evaluation, whether or not an element is placed there. -/
def mark (layout : Layout) (path : Path) : Layout :=
  if hMarked : path ∈ layout.flagged then layout
  else
    { elements := layout.elements
      index := layout.index
      flagged := layout.flagged ++ [path]
      index_spec := layout.index_spec
      flagged_nodup := by
        rw [List.nodup_append]
        refine ⟨layout.flagged_nodup, by simp, ?_⟩
        intro a hA b hB
        rw [List.mem_singleton] at hB
        subst hB
        exact fun hEq => hMarked (hEq ▸ hA) }

/-- Flags every path of a list. -/
def markAll (layout : Layout) (paths : List Path) : Layout := paths.foldl mark layout

/-- Flags every element that shows a stored formula note. -/
def markFormulas (layout : Layout) (store : ItemStore) : Layout :=
  let showing := layout.elements.toList.filter fun element => element.item ∈ store.formulaIds
  layout.markAll (showing.map Element.path)

/-- Takes all flags away. -/
def clearMarks (layout : Layout) : Layout :=
  { layout with flagged := [], flagged_nodup := List.nodup_nil }

/-! ## The index agrees with a scan -/

theorem path_of_elementAt? {layout : Layout} {path : Path} {element : Element}
    (h : layout.elementAt? path = some element) : element.path = path := by
  unfold elementAt? at h
  cases hIndex : layout.index[path]? with
  | none => simp [hIndex] at h
  | some i =>
      have hElement : layout.elements[i]? = some element := by simpa [hIndex] using h
      have hSpec := (layout.index_spec path i).mp hIndex
      simpa [hElement] using hSpec

theorem mem_of_elementAt? {layout : Layout} {path : Path} {element : Element}
    (h : layout.elementAt? path = some element) : element ∈ layout.elements := by
  unfold elementAt? at h
  cases hIndex : layout.index[path]? with
  | none => simp [hIndex] at h
  | some i =>
      have hElement : layout.elements[i]? = some element := by simpa [hIndex] using h
      exact Array.mem_of_getElem? hElement

/-- An element is found at its own path. -/
theorem elementAt?_of_mem {layout : Layout} {element : Element}
    (h : element ∈ layout.elements) : layout.elementAt? element.path = some element := by
  obtain ⟨i, hi⟩ := Array.getElem?_of_mem h
  have hIndex := (layout.index_spec element.path i).mpr (by simp [hi])
  simp [elementAt?, hIndex, hi]

/-- **Index and scan**: a path finds through the index what a scan of the
elements finds. -/
theorem elementAt?_eq_find? (layout : Layout) (path : Path) :
    layout.elementAt? path = layout.elements.toList.find? (·.path == path) := by
  cases hScan : layout.elements.toList.find? (·.path == path) with
  | none =>
      cases hAt : layout.elementAt? path with
      | none => rfl
      | some element =>
          have hNone := List.find?_eq_none.mp hScan element (by simpa using mem_of_elementAt? hAt)
          simp [path_of_elementAt? hAt] at hNone
  | some element =>
      have hMem : element ∈ layout.elements := by
        simpa using List.mem_of_find?_eq_some hScan
      have hPath : element.path = path := by simpa using List.find?_some hScan
      rw [← hPath]
      exact elementAt?_of_mem hMem

end Layout

end NoteSheet
