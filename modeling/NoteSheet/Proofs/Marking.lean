import NoteSheet.Proofs.Absorption
import NoteSheet.Proofs.Histories
import NoteSheet.Proofs.Stores

/-!
# Flagging and recalculating agree

What a formula is gets decided twice. Flagging collects the identifiers of the stored formula
notes and compares each element's item with them; a recalculation looks the item of a flagged
element up and takes its title apart. Here both are compared with a third description, by
kind and first character of the title, of the item that the history of a store has left under
the element's identifier (`Element.showsFormula`).

Main statement: `recalculateIn_of_marked`. After all stored formula notes have been flagged
afresh, a recalculation skips nothing, and every element that shows a formula note has a text
to show.
-/

namespace NoteSheet

/-! ## What a formula is -/

/-- A formula is a note whose title begins with `=`. -/
theorem Item.isFormula_eq (item : Item) :
    item.isFormula = (item.kind == .note && item.title.toList.head? == some '=') := by
  unfold isFormula formula?
  split
  · rename_i hKind hTitle
    simp [hKind, hTitle]
  · rename_i hOther
    rw [Option.isSome_none, eq_comm, Bool.and_eq_false_imp]
    intro hKind
    cases hTitle : item.title.toList with
    | nil => rfl
    | cons c rest =>
        rw [List.head?_cons, beq_eq_false_iff_ne]
        intro hFirst
        cases hFirst
        exact hOther rest (beq_iff_eq.mp hKind) hTitle

/-- Whether an element shows a note whose title begins with `=`, where `known` tells the item
of an identifier. -/
def Element.showsFormula (known : Uid → Option Item) (element : Element) : Bool :=
  (known element.item).any fun item => item.kind == .note && item.title.toList.head? == some '='

theorem Element.showsFormula_iff {known : Uid → Option Item} {element : Element} :
    element.showsFormula known = true ↔
      ∃ item, known element.item = some item ∧ item.isFormula = true := by
  unfold showsFormula
  rw [Option.any_eq_true]
  simp only [Item.isFormula_eq]

/-- The identifiers of formula notes are those that find one. -/
theorem ItemStore.mem_formulaIds_iff {store : ItemStore} {id : Uid} :
    id ∈ store.formulaIds ↔ ∃ item, store.get? id = some item ∧ item.isFormula = true := by
  constructor
  · intro hMem
    obtain ⟨item, hItem, rfl⟩ := List.mem_map.mp hMem
    obtain ⟨hStored, hFormula⟩ := List.mem_filter.mp hItem
    exact ⟨item, get?_eq_some_iff.mpr ⟨hStored, rfl⟩, hFormula⟩
  · rintro ⟨item, hGet, hFormula⟩
    exact mem_formulaIds hGet hFormula

/-! ## What is flagged -/

namespace Layout

theorem mem_flagged_mark {layout : Layout} {marked path : Path} :
    path ∈ (layout.mark marked).flagged ↔ path ∈ layout.flagged ∨ path = marked := by
  unfold mark
  split
  · rename_i hMarked
    constructor
    · exact Or.inl
    · rintro (hMem | rfl)
      · exact hMem
      · exact hMarked
  · exact List.mem_append.trans (or_congr_right List.mem_singleton)

theorem mem_flagged_markAll {layout : Layout} {paths : List Path} {path : Path} :
    path ∈ (layout.markAll paths).flagged ↔ path ∈ layout.flagged ∨ path ∈ paths := by
  unfold markAll
  induction paths generalizing layout with
  | nil => simp
  | cons marked paths ih => rw [List.foldl_cons, ih, mem_flagged_mark, or_assoc, List.mem_cons]

/-- **Flagged**: flagging the formula notes of a store flags the paths of the elements that
show one. -/
theorem mem_flagged_markFormulas {layout : Layout} {store : ItemStore} {path : Path} :
    path ∈ (layout.markFormulas store).flagged ↔
      path ∈ layout.flagged ∨
        path ∈ (layout.elements.toList.filter (·.showsFormula store.get?)).map Element.path := by
  have hSame (element : Element) :
      decide (element.item ∈ store.formulaIds) = element.showsFormula store.get? := by
    rw [Bool.eq_iff_iff, decide_eq_true_eq, ItemStore.mem_formulaIds_iff,
      Element.showsFormula_iff]
  unfold markFormulas
  simp only [hSame]
  exact mem_flagged_markAll

theorem elements_markFormulas (layout : Layout) (store : ItemStore) :
    (layout.markFormulas store).elements = layout.elements :=
  elements_markAll _ _

end Layout

/-! ## What is recalculated -/

namespace Sheet

/-- There is a formula at a path when the element there shows a formula note. -/
theorem formulaAt?_ne_none_iff {sheet : Sheet} {path : Path} :
    sheet.formulaAt? path ≠ none ↔
      path ∈ (sheet.layout.elements.toList.filter (·.showsFormula sheet.items.get?)).map
        Element.path := by
  rw [Option.ne_none_iff_exists', List.mem_map]
  simp only [List.mem_filter, Element.showsFormula_iff, Array.mem_toList_iff]
  constructor
  · rintro ⟨text, hText⟩
    obtain ⟨item, hItem, hFormula⟩ := Option.bind_eq_some_iff.mp hText
    obtain ⟨element, hElement, hGet⟩ := Option.bind_eq_some_iff.mp hItem
    refine ⟨element, ⟨Layout.mem_of_elementAt? hElement, item, hGet, ?_⟩,
      Layout.path_of_elementAt? hElement⟩
    rw [Item.isFormula, hFormula]
    rfl
  · rintro ⟨element, ⟨hMem, item, hGet, hFormula⟩, rfl⟩
    obtain ⟨text, hText⟩ := Option.isSome_iff_exists.mp hFormula
    refine ⟨text, ?_⟩
    simp only [formulaAt?, itemAt?, Layout.elementAt?_of_mem hMem, Option.bind_eq_bind,
      Option.bind_some, hGet, hText]

/-- A recalculation of formula cells skips none of them and gives each of them a text. -/
theorem recalculateIn_of_formulas {sheet : Sheet} {order : List Path}
    (hFormulas : ∀ path ∈ order, sheet.formulaAt? path ≠ none) (filter : Filter) :
    (sheet.recalculateIn filter order).2.skipped = 0 ∧
      (sheet.recalculateIn filter order).2.formulas = order.length ∧
      ∀ path ∈ order,
        ((sheet.recalculateIn filter order).1.layout.override? path).isSome = true := by
  have hRun := recalculatedOn_recalculateIn sheet filter order
  have hLacks : order.countP sheet.lacksFormula = 0 := by
    rw [List.countP_eq_zero]
    intro path hMem hLacksFormula
    exact hFormulas path hMem (Option.isNone_iff_eq_none.mp hLacksFormula)
  refine ⟨hRun.skipped.trans hLacks, ?_, ?_⟩
  · have hAll := sheet.countP_results filter order
    rw [hRun.formulas, hRun.calculated, hRun.failed]
    omega
  · intro path hMem
    have hText := mt (sheet.text?_outcome_eq_none_iff filter path).mp (hFormulas path hMem)
    obtain ⟨text, hText⟩ := Option.ne_none_iff_exists'.mp hText
    rw [hRun.override?_eq, if_pos hMem, hText]
    rfl

/-- **Flagging and recalculating agree**: whatever the history of a store and whatever a layout
holds, once all flags are taken away and the stored formula notes are flagged, exactly the
elements are flagged whose item the history has left as a formula note. A recalculation in
any order then skips nothing, counts each of them once, and leaves each of them with a text
to show. -/
theorem recalculateIn_of_marked (history : List ItemStore.Operation) (layout : Layout)
    (filter : Filter) :
    let sheet := markFormulas ⟨ItemStore.run history, layout.clearMarks⟩
    let cells := layout.elements.toList.filter (·.showsFormula (ItemStore.described history))
    (∀ path, path ∈ sheet.layout.flagged ↔ ∃ element ∈ cells, element.path = path) ∧
      ∀ order, order.Perm sheet.layout.flagged →
        (sheet.recalculateIn filter order).2.skipped = 0 ∧
          (sheet.recalculateIn filter order).2.formulas = cells.length ∧
          ∀ element ∈ cells, ∃ text,
            (sheet.recalculateIn filter order).1.layout.override? element.path = some text := by
  intro sheet cells
  have hCells : layout.elements.toList.filter (·.showsFormula sheet.items.get?) = cells := by
    show layout.elements.toList.filter (·.showsFormula (ItemStore.run history).get?) = cells
    rw [ItemStore.get?_run]
  have hElements : sheet.layout.elements = layout.elements :=
    Layout.elements_markFormulas layout.clearMarks (ItemStore.run history)
  have hFlagged (path : Path) : path ∈ sheet.layout.flagged ↔ path ∈ cells.map Element.path := by
    rw [← hCells]
    exact Layout.mem_flagged_markFormulas.trans (or_iff_right List.not_mem_nil)
  refine ⟨fun path => (hFlagged path).trans List.mem_map, ?_⟩
  intro order hOrder
  have hFormulas (path : Path) (hMem : path ∈ order) : sheet.formulaAt? path ≠ none := by
    rw [formulaAt?_ne_none_iff, hElements, hCells]
    exact (hFlagged path).mp (hOrder.mem_iff.mp hMem)
  obtain ⟨hSkipped, hCount, hShown⟩ := recalculateIn_of_formulas hFormulas filter
  refine ⟨hSkipped, ?_, ?_⟩
  · -- Flags are distinct, and so are the paths of elements.
    have hNodup : (cells.map Element.path).Nodup :=
      (layout.nodup_paths).sublist (List.filter_sublist.map Element.path)
    have hPerm : sheet.layout.flagged.Perm (cells.map Element.path) :=
      (List.perm_ext_iff_of_nodup sheet.layout.flagged_nodup hNodup).mpr hFlagged
    rw [hCount, hOrder.length_eq, hPerm.length_eq, List.length_map]
  · intro element hMem
    have hPath : element.path ∈ order :=
      hOrder.mem_iff.mpr ((hFlagged _).mpr (List.mem_map_of_mem hMem))
    exact Option.isSome_iff_exists.mp (hShown element.path hPath)

end Sheet

end NoteSheet
