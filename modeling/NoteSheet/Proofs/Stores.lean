import NoteSheet.ItemStore

/-!
# Stores after any history

A store is kept as a list of items, and it is asked as a map from identifiers to items. Here
a history of changes is data (`ItemStore.Operation`): items are stored, in the place of others
or beside them, removed, and changed in place. The map that a history describes is written
down without a store (`ItemStore.described`).

One operation changes what a store answers as it changes the map (`get?_apply`), hence so does
a whole history. Main statement: `get?_run`. A list of items stored one after the other is a
special case: of several items of one identifier the last one stays (`get?_ofList`).
-/

namespace NoteSheet.ItemStore

/-! ## What the operations change -/

theorem mem_ids_iff {store : ItemStore} {id : Uid} :
    id ∈ store.items.map Item.id ↔ ∃ item, store.get? id = some item := by
  simp only [List.mem_map, get?_eq_some_iff]

theorem get?_eq_none_iff {store : ItemStore} {id : Uid} :
    store.get? id = none ↔ id ∉ store.items.map Item.id := by
  rw [mem_ids_iff, Option.eq_none_iff_forall_ne_some, not_exists]

/-- Changing the item of an identifier changes what that identifier finds. -/
theorem get?_mapAt (store : ItemStore) (id : Uid) (f : Item → Item)
    (hId : ∀ item, item.id = id → (f item).id = id) (other : Uid) :
    (store.mapAt id f hId).get? other =
      if id = other then (store.get? other).map f else store.get? other := by
  have hSame (item : Item) : (if item.id = id then f item else item).id = item.id := by
    by_cases hItem : item.id = id
    · rw [if_pos hItem, hId item hItem, hItem]
    · rw [if_neg hItem]
  have hMap : (store.mapAt id f hId).get? other =
      (store.get? other).map fun item => if item.id = id then f item else item := by
    show (store.items.map _).find? _ = _
    rw [List.find?_map]
    congr 2
    funext item
    rw [Function.comp_apply, hSame]
  rw [hMap]
  cases hFound : store.get? other with
  | none => simp
  | some item =>
      have hItem : item.id = other := id_of_get? hFound
      by_cases hOther : id = other
      · simp [hOther, hItem]
      · simp [hOther, hItem, Ne.symm hOther]

/-- An identifier finds the item that was stored under it last. -/
theorem get?_insert (store : ItemStore) (item : Item) (id : Uid) :
    (store.insert item).get? id = if item.id = id then some item else store.get? id := by
  unfold insert
  by_cases hTaken : item.id ∈ store.items.map Item.id
  · obtain ⟨stored, hStored⟩ := mem_ids_iff.mp hTaken
    rw [dif_pos hTaken, get?_mapAt]
    by_cases hId : item.id = id
    · rw [if_pos hId, if_pos hId, ← hId, hStored, Option.map_some]
    · rw [if_neg hId, if_neg hId]
  · rw [dif_neg hTaken]
    show (store.items ++ [item]).find? _ = _
    rw [List.find?_append]
    show (store.get? id).or ([item].find? _) = _
    by_cases hId : item.id = id
    · have hNew := get?_eq_none_iff.mpr hTaken
      rw [if_pos hId, ← hId, hNew]
      simp
    · rw [if_neg hId]
      simp [hId]

/-- An identifier finds nothing once its item is removed. -/
theorem get?_erase (store : ItemStore) (gone id : Uid) :
    (store.erase gone).get? id = if gone = id then none else store.get? id := by
  show (store.items.filter _).find? _ = _
  rw [List.find?_filter]
  by_cases hGone : gone = id
  · rw [if_pos hGone, List.find?_eq_none]
    intro item _
    simp [hGone]
  · rw [if_neg hGone]
    show _ = store.items.find? _
    congr 1
    funext item
    by_cases hItem : item.id = id
    · simp [hItem, Ne.symm hGone]
    · simp [hItem]

theorem get?_edit (store : ItemStore) (edited : Uid) (change : Item.Edit) (id : Uid) :
    (store.edit edited change).get? id =
      if edited = id then (store.get? id).map (·.edit change) else store.get? id :=
  get?_mapAt _ _ _ _ _

/-! ## Histories -/

/-- What can be done to a store. -/
inductive Operation where
  /-- Stores an item, in the place of one of its identifier if there is one. -/
  | insert (item : Item)
  | erase (id : Uid)
  /-- Changes kind, title or rating of an item in place. -/
  | edit (id : Uid) (change : Item.Edit)

namespace Operation

/-- The identifier whose item an operation touches. -/
def id : Operation → Uid
  | .insert item => item.id
  | .erase id => id
  | .edit id _ => id

/-- The store after an operation. -/
def apply (store : ItemStore) : Operation → ItemStore
  | .insert item => store.insert item
  | .erase id => store.erase id
  | .edit id change => store.edit id change

/-- What an operation leaves under its own identifier. -/
def result (found : Option Item) : Operation → Option Item
  | .insert item => some item
  | .erase _ => none
  | .edit _ change => found.map (·.edit change)

end Operation

/-- A map from identifiers to items after an operation. -/
def describe (known : Uid → Option Item) (operation : Operation) (id : Uid) : Option Item :=
  if operation.id = id then operation.result (known id) else known id

/-- The store after a history that starts with nothing stored. -/
def run (history : List Operation) : ItemStore := history.foldl Operation.apply empty

/-- The map from identifiers to items that a history describes. -/
def described (history : List Operation) : Uid → Option Item :=
  history.foldl describe fun _ => none

/-- **Step**: an operation changes what a store answers as it changes a map. -/
theorem get?_apply (store : ItemStore) (operation : Operation) :
    (operation.apply store).get? = describe store.get? operation := by
  funext id
  cases operation with
  | insert item => exact store.get?_insert item id
  | erase gone => exact store.get?_erase gone id
  | edit edited change => exact store.get?_edit edited change id

theorem get?_foldl (store : ItemStore) (history : List Operation) :
    (history.foldl Operation.apply store).get? = history.foldl describe store.get? := by
  induction history generalizing store with
  | nil => rfl
  | cons operation history ih => rw [List.foldl_cons, List.foldl_cons, ih, get?_apply]

/-- **Run**: after a history, a store answers as the map that the history describes. -/
theorem get?_run (history : List Operation) : (run history).get? = described history :=
  get?_foldl empty history

/-- Operations that do not touch an identifier leave what it finds as it was. -/
theorem get?_foldl_of_ne (store : ItemStore) {history : List Operation} {id : Uid}
    (hOther : ∀ operation ∈ history, operation.id ≠ id) :
    (history.foldl Operation.apply store).get? id = store.get? id := by
  induction history generalizing store with
  | nil => rfl
  | cons operation history ih =>
      rw [List.forall_mem_cons] at hOther
      rw [List.foldl_cons, ih _ hOther.2, get?_apply, describe, if_neg hOther.1]

/-! ## Lists of items -/

/-- The last item of an identifier in a list. -/
def last? (items : List Item) (id : Uid) : Option Item := items.reverse.find? (·.id == id)

theorem last?_append (items items' : List Item) (id : Uid) :
    last? (items ++ items') id = (last? items' id).or (last? items id) := by
  rw [last?, List.reverse_append, List.find?_append]
  rfl

theorem last?_eq_none_iff {items : List Item} {id : Uid} :
    last? items id = none ↔ id ∉ items.map Item.id := by
  unfold last?
  simp

/-- Which item of an identifier is the last one depends on the items of that identifier. -/
theorem last?_filter (items : List Item) (id : Uid) :
    last? (items.filter (·.id == id)) id = last? items id := by
  unfold last?
  rw [← List.filter_reverse, List.find?_filter]
  congr 1
  funext item
  rw [Bool.eq_iff_iff]
  simp

/-- **The last one stays**: of the items of a list that are stored one after the other, an
identifier finds the last one that carries it. -/
theorem get?_ofList (items : List Item) : (ofList items).get? = last? items := by
  have hFrom (store : ItemStore) (id : Uid) :
      (items.foldl insert store).get? id = (last? items id).or (store.get? id) := by
    induction items generalizing store with
    | nil => rfl
    | cons item items ih =>
        rw [List.foldl_cons, ih, get?_insert, ← List.singleton_append, last?_append]
        by_cases hId : item.id = id
        · simp [last?, hId]
        · simp [last?, hId]
  funext id
  rw [ofList, hFrom]
  exact Option.or_none

end NoteSheet.ItemStore
