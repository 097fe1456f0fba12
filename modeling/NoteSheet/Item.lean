import NoteSheet.Uid

/-!
# Items

An item is what a user stores: a note, a page, an image, a table, a file or a
rating. A note whose title begins with `=` is a formula, and what follows the
`=` is its formula text; every other note is read through the number at the
front of its title.
-/

namespace NoteSheet

/-- What an item is. -/
inductive ItemKind where
  | note
  | page
  | image
  | table
  | file
  | rating
deriving DecidableEq, Repr

namespace ItemKind

/-- Every kind. -/
def all : List ItemKind := [note, page, image, table, file, rating]

/-- The name of a kind. -/
def name : ItemKind → String
  | note => "note"
  | page => "page"
  | image => "image"
  | table => "table"
  | file => "file"
  | rating => "rating"

/-- The kind of a given name. -/
def ofName? (name : String) : Option ItemKind := all.find? (·.name == name)

/-- Whether arrow-key navigation may land on items of this kind. -/
def isNavigable : ItemKind → Bool
  | page | image => true
  | note | table | file | rating => false

end ItemKind

/-- A stored item. -/
structure Item where
  id : Uid
  kind : ItemKind
  title : String := ""
  /-- The star count of a rating. -/
  rating : Float := 0
deriving DecidableEq

namespace Item

/-- Whether the item is a note. -/
def isNote (item : Item) : Bool := item.kind == .note

/-- The formula text of a note whose title begins with `=`. -/
def formula? (item : Item) : Option String :=
  match item.kind, item.title.toList with
  | .note, '=' :: rest => some (String.ofList rest)
  | _, _ => none

/-- Whether the item is a note whose title begins with `=`. -/
def isFormula (item : Item) : Bool := item.formula?.isSome

/-- A change to an item in place. What is `none` stays as it was, and the
identifier always does: stores keep every item under its own. -/
structure Edit where
  kind : Option ItemKind := none
  title : Option String := none
  rating : Option Float := none

/-- The item after a change. -/
def edit (item : Item) (change : Edit) : Item where
  id := item.id
  kind := change.kind.getD item.kind
  title := change.title.getD item.title
  rating := change.rating.getD item.rating

@[simp] theorem edit_id (item : Item) (change : Edit) : (item.edit change).id = item.id := rfl

end Item

end NoteSheet
