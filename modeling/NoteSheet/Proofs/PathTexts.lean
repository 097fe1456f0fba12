import Mathlib.Logic.Basic
import NoteSheet.Path

/-!
# Paths worked out on their texts

A path may be held as nothing but its text. Its parent is then what follows the first dash,
its segments are the pieces between the dashes, and what is no segment among them would be
dropped without notice. Here every operation on paths is worked out on texts in that way
(`PathText`), and it is shown that on the texts that are ever met it is the operation on
lists of segments: nothing is dropped, and no text means two lists.

`Spells` says that a text and a path agree in all operations. Main statement:
`obtained_spells`, that every text which comes from reading, from a root or from a child or
a parent of such a text spells a path.
-/

namespace NoteSheet

/-! ## What was read is what is written -/

/-- A result that goes on to a value had a value to go on with. -/
theorem exists_of_bind_eq_ok {ε α β : Type} {result : Except ε α} {next : α → Except ε β} {y : β}
    (h : result >>= next = .ok y) : ∃ x, result = .ok x ∧ next x = .ok y := by
  cases result with
  | error fault => cases h
  | ok x => exact ⟨x, rfl, h⟩

/-- A segment is written as it was read. -/
theorem Segment.chars_of_ofChars? {cs : List Char} {segment : Segment}
    (h : ofChars? cs = some segment) : segment.chars = cs := by
  obtain ⟨item, hItem, h⟩ := Option.bind_eq_some_iff.mp h
  have hDigits := Uid.digits_of_ofDigits? hItem
  have hWhole := List.take_append_drop Uid.width cs
  rw [← hDigits] at hWhole
  split at h
  · rename_i hDrop
    obtain rfl := Option.some.inj h
    rw [hDrop, List.append_nil] at hWhole
    exact hWhole
  · rename_i inner hDrop
    rcases ite_eq_iff.mp h with ⟨hLast, h⟩ | ⟨-, h⟩
    · obtain ⟨link, hLink, h⟩ := Option.bind_eq_some_iff.mp h
      obtain rfl := Option.some.inj h
      obtain ⟨digits, rfl⟩ := List.getLast?_eq_some_iff.mp hLast
      rw [List.dropLast_concat] at hLink
      rw [← hWhole, hDrop, ← Uid.digits_of_ofDigits? hLink]
      simp [chars]
    · cases h
  · cases h

theorem Segment.chars_of_parse {cs : List Char} {segment : Segment}
    (h : parse cs = .ok segment) : segment.chars = cs := by
  unfold parse at h
  split at h
  · rename_i hRead
    cases h
    exact chars_of_ofChars? hRead
  · cases h

namespace Path

/-- The pieces between the dashes, joined with dashes, are the whole. -/
theorem join_splitDashes (cs : List Char) :
    (splitDashes cs).1 ++ (splitDashes cs).2.flatMap (fun piece => '-' :: piece) = cs := by
  induction cs with
  | nil => rfl
  | cons c cs ih =>
      unfold splitDashes
      dsimp only
      split
      · rename_i hDash
        rw [hDash, List.nil_append, List.flatMap_cons, List.cons_append, ih]
      · rw [List.cons_append, ih]

theorem mapM_parse_eq_ok {pieces : List (List Char)} {segments : List Segment}
    (h : pieces.mapM Segment.parse = .ok segments) : pieces = segments.map Segment.chars := by
  induction pieces generalizing segments with
  | nil =>
      cases h
      rfl
  | cons piece pieces ih =>
      rw [List.mapM_cons] at h
      obtain ⟨segment, hPiece, h⟩ := exists_of_bind_eq_ok h
      obtain ⟨others, hPieces, h⟩ := exists_of_bind_eq_ok h
      cases h
      rw [List.map_cons, ← ih hPieces, Segment.chars_of_parse hPiece]

/-- A path is written as it was read. -/
theorem text_of_parse {text : String} {path : Path} (h : parse text = .ok path) :
    path.text = text := by
  unfold parse at h
  rcases ite_eq_iff.mp h with ⟨-, h⟩ | ⟨-, h⟩
  · cases h
  · obtain ⟨leaf, hLeaf, h⟩ := exists_of_bind_eq_ok h
    obtain ⟨outer, hOuter, h⟩ := exists_of_bind_eq_ok h
    cases h
    have hJoin := join_splitDashes text.toList
    rw [← Segment.chars_of_parse hLeaf, mapM_parse_eq_ok hOuter, List.flatMap_map] at hJoin
    show String.ofList (leaf.chars ++ outer.flatMap fun segment => '-' :: segment.chars) = text
    rw [hJoin, String.ofList_toList]

end Path

/-! ## Operations on texts -/

namespace PathText

/-- The pieces of a text between its dashes. -/
def pieces (text : String) : List (List Char) := text.toList.splitOn '-'

/-- The text before the first dash. -/
def front (text : String) : List Char := text.toList.takeWhile (· ≠ '-')

def root (item : Uid) : String := item.text

def child (text : String) (item : Uid) : String := item.text ++ "-" ++ text

def childVia (text : String) (item link : Uid) : String :=
  item.text ++ "[" ++ link.text ++ "]-" ++ text

/-- What follows the first dash. -/
def parent? (text : String) : Option String :=
  match text.toList.dropWhile (· ≠ '-') with
  | [] => none
  | _ :: outer => some (String.ofList outer)

/-- The first piece as a segment. If it is none, the segment of the empty identifier. -/
def leaf (text : String) : Segment := (Segment.ofChars? (front text)).getD ⟨.empty, none⟩

/-- The pieces that are segments. -/
def segments (text : String) : List Segment := (pieces text).filterMap Segment.ofChars?

def depth (text : String) : Nat := (pieces text).length

def isSibling (first second : String) : Bool :=
  first != second && parent? first == parent? second

/-- The texts that are met: those that are read, those of top-level elements, and those of
what is inside or around an element with such a text. -/
inductive Obtained : String → Prop
  | read {text : String} {path : Path} (reads : Path.parse text = .ok path) : Obtained text
  | root (item : Uid) : Obtained (root item)
  | child {text : String} (inside : Obtained text) (item : Uid) : Obtained (child text item)
  | childVia {text : String} (inside : Obtained text) (item link : Uid) :
      Obtained (childVia text item link)
  | parent {text outer : String} (around : Obtained text) (contains : parent? text = some outer) :
      Obtained outer

/-! ## Texts of paths -/

section Texts

variable (path : Path)

theorem chars_eq_intercalate :
    path.chars = ['-'].intercalate (path.segments.map Segment.chars) := by
  obtain ⟨leaf, outer⟩ := path
  unfold Path.chars Path.segments
  dsimp only
  induction outer generalizing leaf with
  | nil => simp
  | cons next outer ih =>
      rw [List.map_cons, List.map_cons, List.intercalate_cons_cons, ← List.map_cons, ← ih next]
      simp

theorem pieces_text : pieces path.text = path.segments.map Segment.chars := by
  unfold pieces Path.text
  rw [String.toList_ofList, chars_eq_intercalate]
  apply List.splitOn_intercalate
  · intro piece hMem
    obtain ⟨segment, -, rfl⟩ := List.mem_map.mp hMem
    exact segment.dash_not_mem
  · simp [Path.segments]

/-- Every piece of the text of a path is one of its segments. -/
theorem map_pieces_text :
    (pieces path.text).map Segment.ofChars? = path.segments.map some := by
  rw [pieces_text, List.map_map]
  apply List.map_congr_left
  intro segment _
  exact segment.ofChars?_chars

theorem segments_text : segments path.text = path.segments := by
  have hMap := congrArg (List.filterMap id) (map_pieces_text path)
  rw [List.filterMap_map, List.filterMap_map] at hMap
  exact hMap.trans (by simp)

theorem ne_dash_of_mem_leaf {c : Char} (hMem : c ∈ path.leaf.chars) :
    decide (c ≠ '-') = true := by
  rw [decide_eq_true_eq]
  rintro rfl
  exact path.leaf.dash_not_mem hMem

theorem front_text : front path.text = path.leaf.chars := by
  unfold front Path.text Path.chars
  rw [String.toList_ofList, List.takeWhile_append_of_pos fun c => ne_dash_of_mem_leaf path]
  cases path.outer with
  | nil => simp
  | cons next outer => simp

theorem parent?_text : parent? path.text = path.parent?.map Path.text := by
  unfold parent? Path.text Path.chars Path.parent?
  rw [String.toList_ofList, List.dropWhile_append_of_pos fun c => ne_dash_of_mem_leaf path]
  cases path.outer with
  | nil => rfl
  | cons next outer => rfl

theorem leaf_text : leaf path.text = path.leaf := by
  unfold leaf
  rw [front_text, Segment.ofChars?_chars]
  rfl

theorem depth_text : depth path.text = path.depth := by
  unfold depth
  rw [pieces_text, List.length_map]
  rfl

theorem root_text (item : Uid) : root item = (Path.root item).text := by
  simp [root, Path.root, Path.text, Path.chars, Segment.chars, Uid.text]

theorem child_text (item : Uid) : child path.text item = (path.child item).text := by
  apply String.toList_injective
  simp [child, Path.child, Path.text, Path.chars, Path.segments, Segment.chars, Uid.text]

theorem childVia_text (item link : Uid) :
    childVia path.text item link = (path.childVia item link).text := by
  apply String.toList_injective
  simp [childVia, Path.childVia, Path.text, Path.chars, Path.segments, Segment.chars, Uid.text]

theorem text_inj {first second : Path} : first.text = second.text ↔ first = second :=
  ⟨Path.text_injective, congrArg Path.text⟩

theorem isSibling_text (first second : Path) :
    isSibling first.text second.text = first.isSibling second := by
  unfold isSibling Path.isSibling
  rw [parent?_text, parent?_text, Bool.eq_iff_iff]
  have hParents : first.parent?.map Path.text = second.parent?.map Path.text ↔
      first.parent? = second.parent? :=
    (Option.map_injective fun _ _ => Path.text_injective).eq_iff
  simp only [Bool.and_eq_true, bne_iff_ne, ne_eq, beq_iff_eq, text_inj, hParents]

end Texts

/-- Every text that is met is the text of a path. -/
theorem Obtained.exists_path {text : String} (h : Obtained text) :
    ∃ path : Path, path.text = text := by
  induction h with
  | @read text path reads => exact ⟨path, Path.text_of_parse reads⟩
  | root item => exact ⟨Path.root item, (root_text item).symm⟩
  | child _ item ih =>
      obtain ⟨path, rfl⟩ := ih
      exact ⟨path.child item, (child_text path item).symm⟩
  | childVia _ item link ih =>
      obtain ⟨path, rfl⟩ := ih
      exact ⟨path.childVia item link, (childVia_text path item link).symm⟩
  | parent _ contains ih =>
      obtain ⟨path, rfl⟩ := ih
      rw [parent?_text] at contains
      obtain ⟨outer, -, hOuter⟩ := Option.map_eq_some_iff.mp contains
      exact ⟨outer, hOuter⟩

end PathText

/-! ## Paths as lists -/

namespace Path

theorem segments_inj {first second : Path} : first.segments = second.segments ↔ first = second := by
  constructor
  · intro h
    obtain ⟨leaf, outer⟩ := first
    obtain ⟨leaf', outer'⟩ := second
    cases h
    rfl
  · exact congrArg segments

theorem segments_of_parent? {path outer : Path} (h : path.parent? = some outer) :
    outer.segments = path.segments.tail := by
  unfold parent? at h
  split at h
  · cases h
  · rename_i segment others hOuter
    cases h
    exact hOuter.symm

theorem parent?_eq_none_iff {path : Path} : path.parent? = none ↔ path.segments.length = 1 := by
  unfold parent? segments
  cases path.outer <;> simp

/-- Two paths have the same parent, or none, when they have the same tail. -/
theorem parent?_inj {first second : Path} :
    first.parent? = second.parent? ↔ first.segments.tail = second.segments.tail := by
  obtain ⟨leaf, outer⟩ := first
  obtain ⟨leaf', outer'⟩ := second
  unfold parent? segments
  cases outer <;> cases outer' <;> simp

theorem isSibling_iff {first second : Path} :
    first.isSibling second = true ↔
      first.segments ≠ second.segments ∧ first.segments.tail = second.segments.tail := by
  unfold isSibling
  rw [Bool.and_eq_true, bne_iff_ne, beq_iff_eq, parent?_inj, ne_eq, ne_eq, segments_inj]

end Path

namespace PathText

/-- A text spells a path: it reads as the path and is its text, every one of its pieces is
a segment of the path, and each operation on the text is the operation on the list of the
path's segments. -/
structure Spells (text : String) (path : Path) : Prop where
  reads : Path.parse text = .ok path
  text_eq : path.text = text
  /-- No piece is dropped. -/
  whole : (pieces text).map Segment.ofChars? = path.segments.map some
  segments : PathText.segments text = path.segments
  depth : PathText.depth text = path.depth ∧ path.depth = path.segments.length
  joined : "-".intercalate (path.segments.map Segment.text) = text
  /-- The first piece is the head of the list, which is never made up. -/
  head : Segment.ofChars? (front text) = some path.leaf ∧ path.segments.head? = some path.leaf
  item : (leaf text).item = path.item
  link : (leaf text).link = path.link
  child : ∀ item, PathText.child text item = (path.child item).text ∧
    (path.child item).segments = ⟨item, none⟩ :: path.segments
  childVia : ∀ item link, PathText.childVia text item link = (path.childVia item link).text ∧
    (path.childVia item link).segments = ⟨item, some link⟩ :: path.segments
  parent : PathText.parent? text = path.parent?.map Path.text
  topLevel : path.parent? = none ↔ path.segments.length = 1
  tail : ∀ outer, path.parent? = some outer → outer.segments = path.segments.tail

/-- The text of a path spells it. -/
theorem spells_text (path : Path) : Spells path.text path where
  reads := path.parse_text
  text_eq := rfl
  whole := map_pieces_text path
  segments := segments_text path
  depth := ⟨depth_text path, rfl⟩
  joined := by
    apply String.toList_injective
    have hChars : String.toList ∘ Segment.text = Segment.chars :=
      funext fun segment => String.toList_ofList
    rw [String.toList_intercalate, List.map_map, hChars]
    exact (chars_eq_intercalate path).symm.trans String.toList_ofList.symm
  head := ⟨by rw [front_text, Segment.ofChars?_chars], rfl⟩
  item := by rw [leaf_text]; rfl
  link := by rw [leaf_text]; rfl
  child item := ⟨child_text path item, rfl⟩
  childVia item link := ⟨childVia_text path item link, rfl⟩
  parent := parent?_text path
  topLevel := Path.parent?_eq_none_iff
  tail _ h := Path.segments_of_parent? h

/-- **Texts are lists of segments**: every text that is met spells a path. A root is the
list of one segment, and texts are equal or siblings as their lists are. -/
theorem obtained_spells :
    (∀ text, Obtained text → ∃ path, Spells text path) ∧
    (∀ item, root item = (Path.root item).text ∧ (Path.root item).segments = [⟨item, none⟩]) ∧
    (∀ first second path path', Spells first path → Spells second path' →
      (first = second ↔ path.segments = path'.segments) ∧
      (isSibling first second = path.isSibling path') ∧
      (isSibling first second = true ↔
        path.segments ≠ path'.segments ∧ path.segments.tail = path'.segments.tail)) := by
  refine ⟨?_, fun item => ⟨root_text item, rfl⟩, ?_⟩
  · intro text hObtained
    obtain ⟨path, rfl⟩ := hObtained.exists_path
    exact ⟨path, spells_text path⟩
  · intro first second path path' hFirst hSecond
    obtain rfl := hFirst.text_eq
    obtain rfl := hSecond.text_eq
    refine ⟨text_inj.trans Path.segments_inj.symm, isSibling_text path path', ?_⟩
    rw [isSibling_text]
    exact Path.isSibling_iff

/-- An element reached through a link, two levels below the top. -/
theorem obtained_spells_linked :
    ∃ path, Spells (childVia (child (root (Uid.ofNat 1)) (Uid.ofNat 2)) (Uid.ofNat 3)
        (Uid.ofNat 4)) path ∧
      path.segments =
        [⟨Uid.ofNat 3, some (Uid.ofNat 4)⟩, ⟨Uid.ofNat 2, none⟩, ⟨Uid.ofNat 1, none⟩] := by
  have hChild : Obtained (child (root (Uid.ofNat 1)) (Uid.ofNat 2)) := .child (.root _) _
  obtain ⟨path, hSpells⟩ :=
    obtained_spells.1 _ (.childVia hChild (Uid.ofNat 3) (Uid.ofNat 4))
  refine ⟨path, hSpells, ?_⟩
  rw [← hSpells.segments]
  decide +kernel

end PathText

end NoteSheet
