import NoteSheet.Neighbor

/-!
# Sheets

A sheet is the stored items together with the layout that shows them. A formula
cell is a stored formula note; what it reads depends on where it is laid out.
-/

namespace NoteSheet

/-- Items and the layout that shows them. -/
structure Sheet where
  items : ItemStore
  layout : Layout

namespace Sheet

/-- The sheet without items and without elements. -/
def empty : Sheet := ⟨.empty, .empty⟩

/-- Flags every element that shows a stored formula note. -/
def markFormulas (sheet : Sheet) : Sheet :=
  { sheet with layout := sheet.layout.markFormulas sheet.items }

end Sheet

/-- A stored formula note. -/
structure FormulaNote (store : ItemStore) where
  item : Item
  /-- The formula text, after the `=` of the title. -/
  text : String
  stored : store.get? item.id = some item
  formula : item.formula? = some text

/-- The identifier of a formula note. -/
def FormulaNote.id {store : ItemStore} (note : FormulaNote store) : Uid := note.item.id

/-- The formula note stored under an identifier. -/
def ItemStore.formulaNote? (store : ItemStore) (id : Uid) : Option (FormulaNote store) :=
  match hItem : store.get? id with
  | none => none
  | some item =>
      match hText : item.formula? with
      | none => none
      | some text =>
          some ⟨item, text, by rw [ItemStore.id_of_get? hItem]; exact hItem, hText⟩

theorem FormulaNote.mem_formulaIds {store : ItemStore} (note : FormulaNote store) :
    note.id ∈ store.formulaIds :=
  ItemStore.mem_formulaIds note.stored (by simp [Item.isFormula, note.formula])

end NoteSheet
