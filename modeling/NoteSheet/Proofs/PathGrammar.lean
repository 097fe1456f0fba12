import Mathlib.Data.Set.List
import NoteSheet.Proofs.Bytes
import NoteSheet.Proofs.PathTexts

/-!
# The grammar of path texts

A text is read as a path when it is one or more segments with dashes between them, and a
segment is 32 hexadecimal digits, with or without 32 more in brackets behind. Any other text is
refused by the first of its pieces that is no segment.

A segment may also be told by the byte (`PathBytes`): by its length in bytes, the byte at index
32, and slices around it. That index and those slices are safe for a reason that lies in the
checks before them. A byte that is an opening bracket is a character, so what is before it and
what is after it are texts; and no slice is taken before the bracket has been seen.

Main statements: `Path.parse_eq_ok_iff` (a path is read from its text and from no other),
`Segment.mapM_parse_cases` (the first piece that is no segment is named),
`PathBytes.segment?_eq` and `Path.parse_decides_segments`.
-/

namespace NoteSheet

/-! ## Texts of segments and paths -/

/-- The text of an identifier. -/
def IsUidText (cs : List Char) : Prop := cs.length = 32 ∧ ∀ c ∈ cs, isHexDigit c = true

/-- The text of a segment: an identifier, then perhaps one in brackets, and nothing else. -/
inductive IsSegmentText : List Char → Prop
  | plain {item : List Char} (item_text : IsUidText item) : IsSegmentText item
  | linked {item link : List Char} (item_text : IsUidText item) (link_text : IsUidText link) :
      IsSegmentText (item ++ '[' :: link ++ [']'])

/-- The text of a path: one or more segments with dashes between them. -/
def IsPathText (cs : List Char) : Prop :=
  ∃ segments, segments ≠ [] ∧ (∀ segment ∈ segments, IsSegmentText segment) ∧
    cs = ['-'].intercalate segments

theorem isUidText_digits (id : Uid) : IsUidText id.digits :=
  ⟨id.width_eq, List.all_eq_true.mp id.hex⟩

theorem IsUidText.exists_uid {cs : List Char} (h : IsUidText cs) : ∃ id : Uid, id.digits = cs :=
  ⟨⟨cs, h.1, List.all_eq_true.mpr h.2⟩, rfl⟩

theorem isSegmentText_iff {cs : List Char} :
    IsSegmentText cs ↔ ∃ segment : Segment, segment.chars = cs := by
  constructor
  · intro h
    cases h with
    | plain hItem =>
        obtain ⟨item, rfl⟩ := hItem.exists_uid
        exact ⟨⟨item, none⟩, rfl⟩
    | linked hItem hLink =>
        obtain ⟨item, rfl⟩ := hItem.exists_uid
        obtain ⟨link, rfl⟩ := hLink.exists_uid
        exact ⟨⟨item, some link⟩, rfl⟩
  · rintro ⟨⟨item, link⟩, rfl⟩
    cases link with
    | none => exact .plain (isUidText_digits item)
    | some link => exact .linked (isUidText_digits item) (isUidText_digits link)

theorem isPathText_iff {cs : List Char} : IsPathText cs ↔ ∃ path : Path, path.chars = cs := by
  constructor
  · rintro ⟨pieces, hNonempty, hPieces, rfl⟩
    have hRange : pieces ∈ Set.range (List.map Segment.chars) := by
      rw [Set.range_list_map]
      exact fun piece hMem => isSegmentText_iff.mp (hPieces piece hMem)
    obtain ⟨segments, rfl⟩ := hRange
    cases segments with
    | nil => exact absurd rfl hNonempty
    | cons leaf outer => exact ⟨⟨leaf, outer⟩, PathText.chars_eq_intercalate ⟨leaf, outer⟩⟩
  · rintro ⟨path, rfl⟩
    refine ⟨path.segments.map Segment.chars, by simp [Path.segments], ?_,
      PathText.chars_eq_intercalate path⟩
    intro piece hMem
    obtain ⟨segment, -, rfl⟩ := List.mem_map.mp hMem
    exact isSegmentText_iff.mpr ⟨segment, rfl⟩

/-! ## Reading -/

theorem Segment.ofChars?_eq_some_iff {cs : List Char} {segment : Segment} :
    ofChars? cs = some segment ↔ segment.chars = cs :=
  ⟨chars_of_ofChars?, fun h => h ▸ segment.ofChars?_chars⟩

theorem Segment.ofChars?_eq_none_iff {cs : List Char} :
    ofChars? cs = none ↔ ¬ IsSegmentText cs := by
  rw [isSegmentText_iff, Option.eq_none_iff_forall_ne_some, not_exists]
  exact forall_congr' fun segment => not_congr ofChars?_eq_some_iff

/-- The fault that names a piece. -/
def Segment.fault (piece : List Char) : Error :=
  .invalidPath (.malformedSegment (String.ofList piece))

/-- Reading pieces stops at the first that is no segment, and names it. -/
theorem Segment.mapM_parse_cases (pieces : List (List Char)) :
    (∃ segments, pieces = segments.map chars ∧ pieces.mapM parse = .ok segments) ∨
    (∃ before bad after, pieces = before ++ bad :: after ∧
      (∀ piece ∈ before, IsSegmentText piece) ∧ ¬ IsSegmentText bad ∧
      pieces.mapM parse = .error (fault bad)) := by
  induction pieces with
  | nil => exact .inl ⟨[], rfl, rfl⟩
  | cons piece pieces ih =>
      rw [List.mapM_cons]
      cases hRead : ofChars? piece with
      | none =>
          have hParse : parse piece = .error (fault piece) := by
            unfold parse
            rw [hRead]
            rfl
          rw [hParse]
          exact .inr ⟨[], piece, pieces, rfl, nofun, ofChars?_eq_none_iff.mp hRead, rfl⟩
      | some segment =>
          obtain rfl := chars_of_ofChars? hRead
          rw [parse_chars]
          rcases ih with ⟨segments, rfl, hRest⟩ | ⟨before, bad, after, rfl, hBefore, hBad, hRest⟩
          · rw [hRest]
            exact .inl ⟨segment :: segments, rfl, rfl⟩
          · rw [hRest]
            refine .inr ⟨segment.chars :: before, bad, after, rfl, ?_, hBad, rfl⟩
            rw [List.forall_mem_cons]
            exact ⟨isSegmentText_iff.mpr ⟨segment, rfl⟩, hBefore⟩

namespace Path

theorem splitOn_dash (cs : List Char) :
    cs.splitOn '-' = (splitDashes cs).1 :: (splitDashes cs).2 := by
  induction cs with
  | nil => rfl
  | cons c cs ih =>
      show (c :: cs).splitOnP (· == '-') = _
      have hRest : cs.splitOnP (· == '-') = _ := ih
      rw [List.splitOnP_cons_eq_if_modifyHead, hRest, splitDashes]
      dsimp only
      by_cases hDash : c = '-'
      · rw [if_pos (beq_iff_eq.mpr hDash), if_pos hDash]
      · rw [if_neg (by simpa using hDash), if_neg hDash]
        rfl

/-- A path is read from its text and from no other. -/
theorem parse_eq_ok_iff {text : String} {path : Path} :
    parse text = .ok path ↔ path.text = text :=
  ⟨text_of_parse, fun h => h ▸ path.parse_text⟩

/-- A text that is not empty is read piece by piece. -/
theorem parse_eq_of_ne {text : String} (h : text ≠ "") :
    (parse text).map Path.segments = (PathText.pieces text).mapM Segment.parse := by
  have hNonempty : text.toList.isEmpty = false := by simpa using h
  unfold parse PathText.pieces
  rw [hNonempty, if_neg Bool.false_ne_true, splitOn_dash, List.mapM_cons]
  dsimp only
  cases Segment.parse (splitDashes text.toList).1 with
  | error fault => rfl
  | ok leaf =>
      cases (splitDashes text.toList).2.mapM Segment.parse with
      | error fault => rfl
      | ok outer => rfl

end Path

/-! ## Segments by the byte -/

namespace PathBytes

/-- Whether a text is the text of an identifier, by its bytes. -/
def isUid (cs : List Char) : Bool := (utf8 cs).length == 32 && (utf8 cs).all isHexDigitByte

/-- The item and the link of a segment of 66 bytes, where the text is one. There is no answer at
all where an index is past the end or a slice would cut a character in two. -/
def linked? (cs : List Char) : Option (Option (List Char × Option (List Char))) := do
  let bracket ← (utf8 cs)[32]?
  if bracket == '['.toUInt8 && cs.getLast? == some ']' then do
    let item ← slice? cs 0 32
    let link ← slice? cs 33 ((utf8 cs).length - 1)
    return if isUid item && isUid link then some (item, some link) else none
  else return none

/-- The item of a segment and the link if it has one, where the text is a segment. -/
def segment? (cs : List Char) : Option (Option (List Char × Option (List Char))) :=
  if (utf8 cs).length == 32 && isUid cs then some (some (cs, none))
  else if (utf8 cs).length == 66 then linked? cs
  else some none

/-- Checks piece after piece, up to the first that is no segment. -/
def check? : List (List Char) → Option (Except Error Unit)
  | [] => some (.ok ())
  | piece :: pieces => do
      match ← segment? piece with
      | some _ => check? pieces
      | none => some (.error (Segment.fault piece))

/-- Reads a path: the text itself, where all of its pieces are segments. -/
def read? (text : String) : Option (Except Error String) :=
  if text.toList.isEmpty then some (.error (.invalidPath .empty))
  else (check? (PathText.pieces text)).map fun checked => checked.map fun _ => text

theorem isUid_iff {cs : List Char} : isUid cs = true ↔ IsUidText cs := by
  unfold isUid IsUidText
  rw [Bool.and_eq_true, beq_iff_eq, length_utf8, asciiTest_isHexDigit.all_utf8, List.all_eq_true]
  exact and_congr_left fun hHex => by rw [asciiTest_isHexDigit.byteLength_eq hHex]

theorem byteLength_digits (id : Uid) : byteLength id.digits = 32 :=
  (asciiTest_isHexDigit.byteLength_eq (isUidText_digits id).2).trans id.width_eq

/-- The slices on both sides of the bracket, and what is made of them. -/
theorem linked?_brackets {item link : List Char} (hItem : byteLength item = 32)
    (hLength : byteLength (item ++ '[' :: link ++ [']']) = 66) :
    linked? (item ++ '[' :: link ++ [']']) =
      some (if isUid item && isUid link then some (item, some link) else none) := by
  have hText : item ++ '[' :: link ++ [']'] = item ++ '[' :: (link ++ [']']) := by simp
  have hByte : (utf8 (item ++ '[' :: link ++ [']']))[32]? = some '['.toUInt8 := by
    rw [hText, ← hItem, getElem?_utf8_append]
    rfl
  have hBefore : slice? (item ++ '[' :: link ++ [']']) 0 32 = some item :=
    slice?_eq_some_iff.mpr ⟨[], '[' :: link ++ [']'], by simp, rfl, hItem⟩
  have hAfter : slice? (item ++ '[' :: link ++ [']']) 33 65 = some link := by
    have hStart : byteLength (item ++ ['[']) = 33 := by
      rw [byteLength_append, hItem]
      rfl
    have hStop : byteLength (item ++ '[' :: link) = 65 := by
      rw [byteLength_append] at hLength
      exact Nat.succ_inj.mp hLength
    exact slice?_eq_some_iff.mpr ⟨item ++ ['['], [']'], by simp, hStart, by simpa using hStop⟩
  unfold linked?
  rw [hByte, List.getLast?_concat, length_utf8, hLength, hBefore, hAfter]
  rfl

/-- A bracket at byte 32 is a character, with a text before it. -/
theorem exists_of_brackets {cs : List Char} {bracket : UInt8} (hLength : byteLength cs = 66)
    (hByte : (utf8 cs)[32]? = some bracket) (hOpens : bracket == '['.toUInt8)
    (hCloses : cs.getLast? == some ']') :
    ∃ item link, cs = item ++ '[' :: link ++ [']'] ∧ byteLength item = 32 := by
  obtain ⟨item, c, rest, rfl, hItem, hC⟩ :=
    (AsciiTest.beq (c := '[') rfl).exists_of_getElem? hByte hOpens
  obtain rfl := beq_iff_eq.mp hC
  rcases rest.eq_nil_or_concat with rfl | ⟨link, d, rfl⟩
  · rw [byteLength_append, hItem] at hLength
    cases hLength
  · have hText : item ++ '[' :: link.concat d = item ++ '[' :: link ++ [d] := by simp
    rw [hText, List.getLast?_concat, beq_iff_eq, Option.some_inj] at hCloses
    exact ⟨item, link, hCloses ▸ hText, hItem⟩

/-- There is always an answer, and what is found is the text of a segment. -/
theorem segment?_cases (cs : List Char) : segment? cs = some none ∨ IsSegmentText cs := by
  unfold segment?
  split
  · rename_i hPlain
    exact .inr (.plain (isUid_iff.mp (Bool.and_eq_true_iff.mp hPlain).2))
  · split
    · rename_i hLength
      rw [length_utf8, beq_iff_eq] at hLength
      have hInside : 32 < (utf8 cs).length := by
        rw [length_utf8]
        omega
      have hByte := List.getElem?_eq_getElem hInside
      by_cases hBrackets : ((utf8 cs)[32] == '['.toUInt8 && cs.getLast? == some ']') = true
      · obtain ⟨hOpens, hCloses⟩ := Bool.and_eq_true_iff.mp hBrackets
        obtain ⟨item, link, rfl, hItem⟩ := exists_of_brackets hLength hByte hOpens hCloses
        rw [linked?_brackets hItem hLength]
        split
        · rename_i hUids
          obtain ⟨hItem, hLink⟩ := Bool.and_eq_true_iff.mp hUids
          exact .inr (.linked (isUid_iff.mp hItem) (isUid_iff.mp hLink))
        · exact .inl rfl
      · unfold linked?
        rw [hByte]
        show (if _ then _ else _) = _ ∨ _
        rw [if_neg hBrackets]
        exact .inl rfl
    · exact .inl rfl

/-- The text of a segment is found to be one. -/
theorem segment?_chars (segment : Segment) :
    segment? segment.chars = some (some (segment.item.digits, segment.link.map Uid.digits)) := by
  obtain ⟨item, link⟩ := segment
  have hUid (id : Uid) : isUid id.digits = true := isUid_iff.mpr (isUidText_digits id)
  unfold segment?
  rw [length_utf8]
  cases link with
  | none =>
      show (if byteLength item.digits == 32 && isUid item.digits then _ else _) = _
      rw [byteLength_digits, hUid]
      rfl
  | some link =>
      have hLength : byteLength (item.digits ++ '[' :: link.digits ++ [']']) = 66 := by
        rw [byteLength_append, byteLength_append, byteLength_cons, byteLength_digits,
          byteLength_digits]
        rfl
      show (if byteLength (item.digits ++ '[' :: link.digits ++ [']']) == 32 && _ then _ else
        if byteLength (item.digits ++ '[' :: link.digits ++ [']']) == 66 then
          linked? (item.digits ++ '[' :: link.digits ++ [']']) else _) = _
      rw [hLength, linked?_brackets (byteLength_digits item) hLength, hUid, hUid]
      rfl

/-- A segment is told by its bytes as it is by its characters, and no index and no slice is
ever wrong. -/
theorem segment?_eq (cs : List Char) : segment? cs =
    some ((Segment.ofChars? cs).map fun segment =>
      (segment.item.digits, segment.link.map Uid.digits)) := by
  cases hRead : Segment.ofChars? cs with
  | some segment =>
      obtain rfl := Segment.chars_of_ofChars? hRead
      exact segment?_chars segment
  | none =>
      exact (segment?_cases cs).resolve_right (Segment.ofChars?_eq_none_iff.mp hRead)

theorem check?_eq (pieces : List (List Char)) :
    check? pieces = some ((pieces.mapM Segment.parse).map fun _ => ()) := by
  induction pieces with
  | nil => rfl
  | cons piece pieces ih =>
      rw [List.mapM_cons, check?, segment?_eq, Segment.parse]
      cases Segment.ofChars? piece with
      | none => rfl
      | some segment =>
          show check? pieces = _
          rw [ih]
          cases pieces.mapM Segment.parse with
          | error fault => rfl
          | ok segments => rfl

/-- Going by the byte through a whole text comes to reading it, and keeps the text. -/
theorem read?_eq (text : String) : read? text = some ((Path.parse text).map Path.text) := by
  unfold read?
  split
  · rename_i hEmpty
    unfold Path.parse
    rw [if_pos hEmpty]
    rfl
  · rename_i hNonempty
    have hNe : text ≠ "" := by simpa using hNonempty
    rw [check?_eq, ← Path.parse_eq_of_ne hNe]
    cases hParse : Path.parse text with
    | error fault => rfl
    | ok path =>
        rw [← Path.text_of_parse hParse]
        rfl

end PathBytes

namespace Path

/-- A text that is not empty is read whole, or refused by its first piece that is no segment. -/
theorem parse_cases {text : String} (h : text ≠ "") : (∃ path, parse text = .ok path) ∨
    ∃ before bad after, PathText.pieces text = before ++ bad :: after ∧
      (∀ piece ∈ before, IsSegmentText piece) ∧ ¬ IsSegmentText bad ∧
      parse text = .error (Segment.fault bad) := by
  have hPieces := parse_eq_of_ne h
  rcases Segment.mapM_parse_cases (PathText.pieces text) with
    ⟨segments, -, hRead⟩ | ⟨before, bad, after, hText, hBefore, hBad, hRead⟩
  · rw [hRead] at hPieces
    cases hParse : parse text with
    | error fault =>
        rw [hParse] at hPieces
        cases hPieces
    | ok path => exact .inl ⟨path, rfl⟩
  · rw [hRead] at hPieces
    cases hParse : parse text with
    | error fault =>
        rw [hParse] at hPieces
        cases hPieces
        exact .inr ⟨before, bad, after, hText, hBefore, hBad, rfl⟩
    | ok path =>
        rw [hParse] at hPieces
        cases hPieces

/-- **The grammar of paths**: a text is read as a path exactly when it is one or more segments
with dashes between them, and the path keeps the text. The empty text is refused as such, and
any other text by its first piece that is no segment. By the byte the same comes out of every
text, with every index inside it and every slice between two characters. -/
theorem parse_decides_segments (text : String) :
    ((∃ path, parse text = .ok path) ↔ IsPathText text.toList) ∧
    (∀ path, parse text = .ok path → path.text = text) ∧
    (∃ fault, parse "" = .error (.invalidPath fault) ∧ fault.message = "empty path") ∧
    (text ≠ "" → ¬ IsPathText text.toList →
      ∃ before bad after, PathText.pieces text = before ++ bad :: after ∧
        (∀ piece ∈ before, IsSegmentText piece) ∧ ¬ IsSegmentText bad ∧
        ∃ fault, parse text = .error (.invalidPath fault) ∧
          fault.message = "malformed segment '" ++ String.ofList bad ++ "'") ∧
    (∀ cs, PathBytes.segment? cs = some ((Segment.ofChars? cs).map fun segment =>
      (segment.item.digits, segment.link.map Uid.digits))) ∧
    PathBytes.read? text = some ((parse text).map Path.text) := by
  have hAccepts : (∃ path, parse text = .ok path) ↔ IsPathText text.toList := by
    rw [isPathText_iff]
    refine exists_congr fun path => parse_eq_ok_iff.trans ?_
    rw [← String.toList_inj, Path.text, String.toList_ofList]
  refine ⟨hAccepts, fun path => text_of_parse, ⟨.empty, rfl, rfl⟩, ?_, PathBytes.segment?_eq,
    PathBytes.read?_eq text⟩
  intro hNe hRefused
  obtain hRead | ⟨before, bad, after, hText, hBefore, hBad, hParse⟩ := parse_cases hNe
  · exact absurd (hAccepts.mp hRead) hRefused
  · exact ⟨before, bad, after, hText, hBefore, hBad, _, hParse, rfl⟩

/-- A piece as long as a segment with a link, but with a character of two bytes across the end
of the item. -/
def straddling : List Char := List.replicate 31 '0' ++ 'é' :: List.replicate 32 '0' ++ [']']

/-- Two pieces, the second of which is as long as a segment and refused. -/
theorem parse_decides_segments_straddling :
    (utf8 straddling).length = 66 ∧ PathBytes.segment? straddling = some none ∧
      ∃ before bad after,
        PathText.pieces (String.ofList (Uid.empty.digits ++ '-' :: straddling)) =
          before ++ bad :: after ∧
        (∀ piece ∈ before, IsSegmentText piece) ∧ ¬ IsSegmentText bad ∧
        ∃ fault, parse (String.ofList (Uid.empty.digits ++ '-' :: straddling)) =
            .error (.invalidPath fault) ∧
          fault.message = "malformed segment '" ++ String.ofList bad ++ "'" := by
  obtain ⟨hAccepts, -, -, hRefused, -, -⟩ :=
    parse_decides_segments (String.ofList (Uid.empty.digits ++ '-' :: straddling))
  have hParse : parse (String.ofList (Uid.empty.digits ++ '-' :: straddling)) =
      .error (Segment.fault straddling) := by
    decide +kernel
  refine ⟨by decide, by decide +kernel, hRefused (by decide +kernel) fun hPath => ?_⟩
  obtain ⟨path, hPath⟩ := hAccepts.mpr hPath
  rw [hParse] at hPath
  cases hPath

end Path

end NoteSheet
