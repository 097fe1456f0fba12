import NoteSheet.Json.Reader
import NoteSheet.Recalculation

/-!
# Scenes

A scene is the JSON form of a sheet: its items, its elements in layout order,
and the paths to evaluate. A scene that does not list such paths evaluates every
formula. Of two items of one identifier the later one counts; two elements at
one path make the scene impossible to lay out.
-/

namespace NoteSheet

/-- A scene as it is written down. -/
structure Scene where
  items : List Item
  elements : List Element
  /-- The paths to evaluate; `none` stands for every element that shows a formula. -/
  evaluate : Option (List Path) := none

namespace Scene

open Json (Value)

/-! ## Reading -/

/-- The identifier that a value spells. -/
def uid? (value : Value) : Option Uid := do
  let text ← value.asText?
  (Uid.parse text).toOption

/-- The path that a value spells. -/
def path? (value : Value) : Option Path := do
  let text ← value.asText?
  (Path.parse text).toOption

/-- The kind that a value names. -/
def kind? (value : Value) : Option ItemKind := do
  let name ← value.asName?
  ItemKind.ofName? name

/-- A field that may be left out. -/
def orDefault? {α : Type} (read : Value → Option α) (default : α) : Option Value → Option α
  | none => some default
  | some value => read value

/-- An item: `id`, `kind`, and where given `title` and `rating`. -/
def item? (value : Value) : Option Item := do
  match ← value.fields? ["id", "kind", "title", "rating"] with
  | [some id, some kind, title, rating] =>
      return {
        id := ← uid? id
        kind := ← kind? kind
        title := ← orDefault? Value.asText? "" title
        rating := ← orDefault? Value.asFloat? 0 rating }
  | _ => none

/-- A box: `x`, `y`, `w` and `h`. -/
def box? (value : Value) : Option Box := do
  match ← value.fields? ["x", "y", "w", "h"] with
  | [some x, some y, some width, some height] =>
      return {
        x := ← x.asFloat?
        y := ← y.asFloat?
        width := ← width.asFloat?
        height := ← height.asFloat? }
  | _ => none

/-- An element: `path`, `display_item`, `display_kind`, `bounds_px`, and where
given `is_popup` and `evaluated_title`. -/
def element? (value : Value) : Option Element := do
  match ← value.fields? ["path", "display_item", "display_kind", "bounds_px", "is_popup",
      "evaluated_title"] with
  | [some path, some item, some kind, some box, popup, override] =>
      return {
        path := ← path? path
        item := ← uid? item
        kind := ← kind? kind
        box := ← box? box
        popup := ← orDefault? Value.asBool? false popup
        override := ← orDefault? (Value.asOption? Value.asText?) none override }
  | _ => none

/-- A scene: `items`, `elements`, and where given `evaluate`. -/
def ofValue? (value : Value) : Option Scene := do
  match ← value.fields? ["items", "elements", "evaluate"] with
  | [some items, some elements, evaluate] =>
      return {
        items := ← Value.asList? item? items
        elements := ← Value.asList? element? elements
        evaluate := ← orDefault? (Value.asOption? (Value.asList? path?)) none evaluate }
  | _ => none

/-- Reads a scene; a text that is not JSON or does not have these fields is none. -/
def ofText? (text : String) : Option Scene := do
  let value ← Json.read? text
  ofValue? value

/-! ## Building -/

/-- Places elements one behind the other. -/
def layOut (elements : List Element) : Except Error Layout :=
  elements.foldlM Layout.insert Layout.empty

/-- The sheet of a scene, with the paths to evaluate flagged. -/
def build (scene : Scene) : Except Error Sheet := do
  let layout ← layOut scene.elements
  let sheet : Sheet := ⟨ItemStore.ofList scene.items, layout⟩
  match scene.evaluate with
  | some paths => return { sheet with layout := layout.markAll paths }
  | none => return sheet.markFormulas

end Scene

end NoteSheet
