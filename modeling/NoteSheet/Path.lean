import NoteSheet.Uid

/-!
# Element paths

A path names one placed element by walking from the element out to its
top-level page. Each step is a segment: the item shown there and, when the item
was reached through a link, the link item in brackets. The text of a path joins
its segments with `-`, innermost first:

    <item>[<link>]-<parent item>-<top-level item>

A path is held as its segments, and there is always at least one. Two elements
are siblings when they are different and sit under the same parent; top-level
elements are siblings of each other.

Main statement: `parse_text` says that the text of a path reads back as the path,
so that two paths of one text are the same path and paths may be ordered by text.
-/

namespace NoteSheet

/-- One step of a path. -/
structure Segment where
  /-- The item shown at this step. -/
  item : Uid
  /-- The link item through which it was reached. -/
  link : Option Uid := none
deriving DecidableEq

namespace Segment

/-- The characters of a segment: the item, then the link in brackets. -/
def chars (segment : Segment) : List Char :=
  match segment.link with
  | none => segment.item.digits
  | some link => segment.item.digits ++ '[' :: link.digits ++ [']']

/-- A segment as text. -/
def text (segment : Segment) : String := String.ofList segment.chars

/-- Reads a segment: an identifier with nothing after it, or with exactly one
identifier in brackets after it. -/
def ofChars? (cs : List Char) : Option Segment := do
  let item ← Uid.ofDigits? (cs.take Uid.width)
  match cs.drop Uid.width with
  | [] => return ⟨item, none⟩
  | '[' :: inner =>
      if inner.getLast? = some ']' then
        let link ← Uid.ofDigits? inner.dropLast
        return ⟨item, some link⟩
      else none
  | _ => none

/-- Reads a segment, or names the text that is not one. -/
def parse (cs : List Char) : Except Error Segment :=
  match ofChars? cs with
  | some segment => .ok segment
  | none => .error (.invalidPath (.malformedSegment (String.ofList cs)))

end Segment

/-- The stable identity of a placed element. -/
structure Path where
  /-- The segment of the element itself. -/
  leaf : Segment
  /-- The segments around it, from its parent out to the top level. -/
  outer : List Segment := []
deriving DecidableEq

namespace Path

/-- All segments, innermost first. -/
def segments (path : Path) : List Segment := path.leaf :: path.outer

/-- The number of segments. -/
def depth (path : Path) : Nat := path.segments.length

/-- The item that the path's own element shows. -/
def item (path : Path) : Uid := path.leaf.item

/-- The link through which the path's own element was reached. -/
def link (path : Path) : Option Uid := path.leaf.link

/-- The path of a top-level element. -/
def root (item : Uid) : Path := ⟨⟨item, none⟩, []⟩

/-- The path of an element directly inside this one. -/
def child (path : Path) (item : Uid) : Path := ⟨⟨item, none⟩, path.segments⟩

/-- The path of an element directly inside this one, reached through a link. -/
def childVia (path : Path) (item link : Uid) : Path := ⟨⟨item, some link⟩, path.segments⟩

/-- The path of the containing element; a top-level element has none. -/
def parent? (path : Path) : Option Path :=
  match path.outer with
  | [] => none
  | segment :: outer => some ⟨segment, outer⟩

/-- Whether two different elements have the same parent, or are both top-level. -/
def isSibling (a b : Path) : Bool := a != b && a.parent? == b.parent?

/-- The characters of a path: its segments joined with `-`. -/
def chars (path : Path) : List Char :=
  path.leaf.chars ++ path.outer.flatMap fun segment => '-' :: segment.chars

/-- A path as text. -/
def text (path : Path) : String := String.ofList path.chars

instance : ToString Path := ⟨text⟩

/-- Paths are ordered as their texts are. -/
instance : Ord Path := ⟨fun a b => compare a.text b.text⟩

/-- Whether a path comes no later than another in the order of their texts. -/
def atMost (a b : Path) : Bool := (compare a b).isLE

/-- The pieces of a text between its dashes, the first of them apart. -/
def splitDashes : List Char → List Char × List (List Char)
  | [] => ([], [])
  | c :: cs =>
      let (first, others) := splitDashes cs
      if c = '-' then ([], first :: others) else (c :: first, others)

/-- Reads a path. The first segment in text order that is malformed is named. -/
def parse (text : String) : Except Error Path :=
  if text.toList.isEmpty then
    .error (.invalidPath .empty)
  else do
    let (first, others) := splitDashes text.toList
    let leaf ← Segment.parse first
    let outer ← others.mapM Segment.parse
    return ⟨leaf, outer⟩

/-! ## Texts read back -/

end Path

theorem Uid.dash_not_mem (id : Uid) : '-' ∉ id.digits := by
  intro hMem
  have hHex := List.all_eq_true.mp id.hex '-' hMem
  exact absurd hHex (by decide)

namespace Segment

theorem dash_not_mem (segment : Segment) : '-' ∉ segment.chars := by
  unfold chars
  cases segment.link with
  | none => exact segment.item.dash_not_mem
  | some link => simp [segment.item.dash_not_mem, link.dash_not_mem]

theorem chars_ne_nil (segment : Segment) : segment.chars ≠ [] := by
  have hItem : segment.item.digits ≠ [] := fun hNil => by
    have hWidth := segment.item.width_eq
    simp [hNil] at hWidth
  unfold chars
  cases segment.link with
  | none => exact hItem
  | some link => simp

theorem ofChars?_chars (segment : Segment) : ofChars? segment.chars = some segment := by
  obtain ⟨item, link⟩ := segment
  have hTake (rest : List Char) : (item.digits ++ rest).take Uid.width = item.digits := by
    rw [← item.width_eq, List.take_left]
  have hDrop (rest : List Char) : (item.digits ++ rest).drop Uid.width = rest := by
    rw [← item.width_eq, List.drop_left]
  cases link with
  | none =>
      have hTakeAll := hTake []
      have hDropAll := hDrop []
      rw [List.append_nil] at hTakeAll hDropAll
      simp [ofChars?, chars, hTakeAll, hDropAll]
  | some link =>
      have hChars : chars ⟨item, some link⟩ = item.digits ++ '[' :: (link.digits ++ [']']) := by
        simp [chars]
      rw [hChars]
      simp [ofChars?, hTake, hDrop]

theorem parse_chars (segment : Segment) : parse segment.chars = .ok segment := by
  simp [parse, ofChars?_chars]

end Segment

namespace Path

theorem splitDashes_append {cs : List Char} (hDash : '-' ∉ cs) (rest : List Char) :
    splitDashes (cs ++ rest) = (cs ++ (splitDashes rest).1, (splitDashes rest).2) := by
  induction cs with
  | nil => rfl
  | cons c cs ih =>
      rw [List.mem_cons, not_or] at hDash
      have hNe : c ≠ '-' := fun hEq => hDash.1 hEq.symm
      simp [splitDashes, ih hDash.2, hNe]

theorem splitDashes_dash (rest : List Char) :
    splitDashes ('-' :: rest) = ([], (splitDashes rest).1 :: (splitDashes rest).2) := rfl

/-- Joined segments come apart at the dashes between them. -/
theorem splitDashes_joined (leaf : Segment) (outer : List Segment) :
    splitDashes (leaf.chars ++ outer.flatMap fun segment => '-' :: segment.chars) =
      (leaf.chars, outer.map Segment.chars) := by
  induction outer generalizing leaf with
  | nil =>
      rw [List.flatMap_nil, splitDashes_append leaf.dash_not_mem]
      simp [splitDashes]
  | cons next outer ih =>
      rw [List.flatMap_cons, splitDashes_append leaf.dash_not_mem, List.cons_append,
        splitDashes_dash, ih]
      simp

theorem mapM_parse_chars (segments : List Segment) :
    (segments.map Segment.chars).mapM Segment.parse = .ok segments := by
  induction segments with
  | nil => rfl
  | cons segment segments ih =>
      rw [List.map_cons, List.mapM_cons, Segment.parse_chars, ih]
      rfl

/-- **Texts read back**: the text of a path reads as the path. -/
@[simp] theorem parse_text (path : Path) : parse path.text = .ok path := by
  obtain ⟨leaf, outer⟩ := path
  have hNil : (chars ⟨leaf, outer⟩).isEmpty = false := by
    simp [chars, leaf.chars_ne_nil]
  unfold parse text
  rw [String.toList_ofList, hNil]
  show (do
    let first ← Segment.parse (splitDashes (chars ⟨leaf, outer⟩)).1
    let others ← (splitDashes (chars ⟨leaf, outer⟩)).2.mapM Segment.parse
    return (⟨first, others⟩ : Path)) = Except.ok ⟨leaf, outer⟩
  unfold chars
  rw [splitDashes_joined]
  show (do
    let first ← Segment.parse leaf.chars
    let others ← (outer.map Segment.chars).mapM Segment.parse
    return (⟨first, others⟩ : Path)) = Except.ok ⟨leaf, outer⟩
  rw [Segment.parse_chars, mapM_parse_chars]
  rfl

/-- Two paths of one text are the same path. -/
theorem text_injective {a b : Path} (h : a.text = b.text) : a = b := by
  have hParse := parse_text a
  rw [h, parse_text b] at hParse
  exact (Except.ok.inj hParse).symm

instance : Std.TransOrd Path where
  eq_swap := Std.OrientedOrd.eq_swap (α := String)
  isLE_trans := Std.TransOrd.isLE_trans (α := String)

instance : Std.LawfulEqOrd Path where
  eq_of_compare h := text_injective (Std.LawfulEqOrd.eq_of_compare (α := String) h)

end Path

end NoteSheet
