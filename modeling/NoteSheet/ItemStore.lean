import NoteSheet.Item

/-!
# The item store

A store holds at most one item under each identifier, and every item under its
own. It is kept as a list without two items of one identifier. Main statement:
`get?_eq_some_iff` says that looking an identifier up finds exactly the stored
item that carries it.

That items stay under their own identifiers is part of what a store is. A change
in place (`edit`) may give an item another kind, title or rating, and no other
identifier: to rename an item is to erase it and to store it anew. A store that
has an item under an identifier which is not the item's own does not exist here,
and nothing is said about one.
-/

namespace NoteSheet

/-- The stored items. -/
structure ItemStore where
  /-- The items, in the order in which their identifiers were first stored. -/
  items : List Item := []
  distinct : (items.map Item.id).Nodup := by simp

namespace ItemStore

/-- The store that holds nothing. -/
def empty : ItemStore := {}

/-- The number of stored items. -/
def size (store : ItemStore) : Nat := store.items.length

/-- Whether nothing is stored. -/
def isEmpty (store : ItemStore) : Bool := store.items.isEmpty

/-- The item stored under an identifier. -/
def get? (store : ItemStore) (id : Uid) : Option Item :=
  store.items.find? (·.id == id)

/-- Applies `f`, which must keep identifiers, to the item stored under `id`. -/
def mapAt (store : ItemStore) (id : Uid) (f : Item → Item)
    (hId : ∀ item, item.id = id → (f item).id = id) : ItemStore where
  items := store.items.map fun item => if item.id = id then f item else item
  distinct := by
    have hMap : (store.items.map fun item => if item.id = id then f item else item).map Item.id =
        store.items.map Item.id := by
      rw [List.map_map]
      apply List.map_congr_left
      intro item _
      by_cases hItem : item.id = id
      · simp [hItem, hId item hItem]
      · simp [hItem]
    rw [hMap]
    exact store.distinct

/-- Stores an item under its identifier, in the place of one that is already there. -/
def insert (store : ItemStore) (item : Item) : ItemStore :=
  if hFound : item.id ∈ store.items.map Item.id then
    store.mapAt item.id (fun _ => item) fun _ _ => rfl
  else
    { items := store.items ++ [item]
      distinct := by
        rw [List.map_append, List.nodup_append]
        refine ⟨store.distinct, by simp, ?_⟩
        intro a hA b hB
        simp only [List.map_cons, List.map_nil, List.mem_singleton] at hB
        subst hB
        exact fun hEq => hFound (hEq ▸ hA) }

/-- Removes the item stored under an identifier. -/
def erase (store : ItemStore) (id : Uid) : ItemStore where
  items := store.items.filter (·.id != id)
  distinct := store.distinct.sublist (List.filter_sublist.map Item.id)

/-- Changes the item stored under an identifier in place. -/
def edit (store : ItemStore) (id : Uid) (change : Item.Edit) : ItemStore :=
  store.mapAt id (·.edit change) fun _ h => h

/-- Stores the items of a list one after the other: of two items of one
identifier, the later one stays. -/
def ofList (items : List Item) : ItemStore := items.foldl insert empty

/-- The identifiers of the stored formula notes. -/
def formulaIds (store : ItemStore) : List Uid :=
  (store.items.filter (·.isFormula)).map Item.id

/-! ## What looking up finds -/

theorem id_of_get? {store : ItemStore} {id : Uid} {item : Item}
    (h : store.get? id = some item) : item.id = id := by
  have hFound := List.find?_some h
  simpa using hFound

theorem mem_of_get? {store : ItemStore} {id : Uid} {item : Item}
    (h : store.get? id = some item) : item ∈ store.items :=
  List.mem_of_find?_eq_some h

/-- In a list without two items of one identifier, an identifier finds its item. -/
theorem find?_id_of_mem {items : List Item} {item : Item}
    (hDistinct : (items.map Item.id).Nodup) (hMem : item ∈ items) :
    items.find? (·.id == item.id) = some item := by
  induction items with
  | nil => cases hMem
  | cons head rest ih =>
      rw [List.map_cons, List.nodup_cons] at hDistinct
      rcases List.mem_cons.mp hMem with rfl | hRest
      · simp
      · have hNe : head.id ≠ item.id := fun hEq =>
          hDistinct.1 (hEq ▸ List.mem_map_of_mem hRest)
        rw [List.find?_cons_of_neg (by simpa using hNe)]
        exact ih hDistinct.2 hRest

/-- **Lookup**: an identifier finds exactly the stored item that carries it. -/
theorem get?_eq_some_iff {store : ItemStore} {id : Uid} {item : Item} :
    store.get? id = some item ↔ item ∈ store.items ∧ item.id = id := by
  constructor
  · intro h
    exact ⟨mem_of_get? h, id_of_get? h⟩
  · rintro ⟨hMem, rfl⟩
    exact find?_id_of_mem store.distinct hMem

theorem mem_formulaIds {store : ItemStore} {id : Uid} {item : Item}
    (hGet : store.get? id = some item) (hFormula : item.isFormula = true) :
    id ∈ store.formulaIds := by
  simp only [formulaIds, List.mem_map, List.mem_filter]
  exact ⟨item, ⟨mem_of_get? hGet, hFormula⟩, id_of_get? hGet⟩

end ItemStore

end NoteSheet
