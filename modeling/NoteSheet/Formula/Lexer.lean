import NoteSheet.Direction
import NoteSheet.Formula.Token
import NoteSheet.Uid

/-!
# Cutting formula text into tokens

A lexer holds the text that is still to be read and the place where it starts.
Each call skips spacing and takes the longest piece of one class off the front:
a number with at most one point, a word after `$`, a word, or a single
character. Nothing is ever refused: what fits no class becomes an illegal token.

Main statement: `rest_length_nextToken_lt` says that every token but the end of
the input shortens the text, so that a text has finitely many tokens.
-/

namespace NoteSheet

/-- The spacing between tokens. -/
def isSpacing (c : Char) : Bool := c == ' ' || c == '\t' || c == '\r' || c == '\n'

/-- The characters of words: ASCII letters, digits and the underscore. -/
def isWordChar (c : Char) : Bool := c.isAlphanum || c == '_'

/-- The number of bytes that characters take in UTF-8. -/
def byteLength (cs : List Char) : Nat := cs.foldr (fun c size => c.utf8Size + size) 0

/-- The digits at the front with at most one point among them, and the rest.
`pointSeen` says whether the point has been used up. -/
def spanNumber (pointSeen : Bool) : List Char → List Char × List Char
  | [] => ([], [])
  | c :: cs =>
      if c.isDigit then
        let (taken, rest) := spanNumber pointSeen cs
        (c :: taken, rest)
      else if c == '.' && !pointSeen then
        let (taken, rest) := spanNumber true cs
        (c :: taken, rest)
      else ([], c :: cs)

/-- Whether a word is a direction letter followed by one or more digits. -/
def isSteps : List Char → Bool
  | [] => false
  | letter :: steps =>
      (Direction.ofLetter? letter).isSome && !steps.isEmpty && steps.all Char.isDigit

/-- The kind of a `$` followed by `word`. A word as wide as an identifier is an
identifier or nothing. -/
def referenceKind (word : List Char) : TokenKind :=
  if word.length = Uid.width then
    if word.all isHexDigit then .absoluteRef else .illegal
  else if isSteps word then .relativeRef
  else if word.head?.any Char.isAlpha then .variableRef
  else .illegal

/-- The kind of a character that is a token of its own. -/
def symbolKind (c : Char) : TokenKind :=
  match c with
  | '+' => .plus
  | '-' => .minus
  | '*' => .times
  | '/' => .divide
  | '=' => .equal
  | ';' => .semicolon
  | '(' => .leftParen
  | ')' => .rightParen
  | _ => .illegal

/-- A piece cut off the front of a text. -/
structure Piece where
  kind : TokenKind
  /-- The characters of the text that belong to the piece, all of them. -/
  span : List Char
  /-- The text after the piece. -/
  rest : List Char

/-- Cuts the piece that starts with `c` off the front of `c :: cs`. -/
def Piece.cut (c : Char) (cs : List Char) : Piece :=
  if c.isDigit || c == '.' then
    let (taken, rest) := spanNumber (c == '.') cs
    ⟨.number, c :: taken, rest⟩
  else if c == '$' then
    let word := cs.takeWhile isWordChar
    ⟨referenceKind word, c :: word, cs.dropWhile isWordChar⟩
  else if c.isAlpha then
    ⟨.identifier, c :: cs.takeWhile isWordChar, cs.dropWhile isWordChar⟩
  else
    ⟨symbolKind c, [c], cs⟩

/-- The literal of a piece: its characters, less the `$` of a variable. -/
def Piece.literal (piece : Piece) : String :=
  match piece.kind with
  | .variableRef => String.ofList (piece.span.drop 1)
  | _ => String.ofList piece.span

/-! ## A piece takes at least one character -/

theorem spanNumber_append (pointSeen : Bool) (cs : List Char) :
    (spanNumber pointSeen cs).1 ++ (spanNumber pointSeen cs).2 = cs := by
  induction cs generalizing pointSeen with
  | nil => rfl
  | cons c cs ih =>
      unfold spanNumber
      split
      · simp [ih pointSeen]
      · split
        · simp [ih true]
        · rfl

theorem Piece.span_append_rest (c : Char) (cs : List Char) :
    (Piece.cut c cs).span ++ (Piece.cut c cs).rest = c :: cs := by
  unfold Piece.cut
  split
  · simp [spanNumber_append]
  · split
    · simp [List.takeWhile_append_dropWhile]
    · split
      · simp [List.takeWhile_append_dropWhile]
      · rfl

theorem Piece.span_ne_nil (c : Char) (cs : List Char) : (Piece.cut c cs).span ≠ [] := by
  unfold Piece.cut
  split
  · simp
  · split
    · simp
    · split <;> simp

theorem Piece.rest_length_lt (c : Char) (cs : List Char) :
    (Piece.cut c cs).rest.length < (c :: cs).length := by
  have hLength := congrArg List.length (span_append_rest c cs)
  have hPos := List.length_pos_iff.mpr (span_ne_nil c cs)
  rw [List.length_append] at hLength
  omega

theorem Piece.kind_ne_endOfInput (c : Char) (cs : List Char) :
    (Piece.cut c cs).kind ≠ .endOfInput := by
  unfold Piece.cut
  split
  · simp
  · split
    · simp only [referenceKind]
      split
      · split <;> simp
      · split
        · simp
        · split <;> simp
    · split
      · simp
      · simp only [symbolKind]
        split <;> simp

/-! ## The lexer -/

/-- A formula text that has been read up to some place. -/
structure Lexer where
  /-- The text that is still to be read. -/
  rest : List Char
  /-- The byte at which `rest` starts. -/
  offset : Nat := 0
  /-- Whether iteration has already given the end of the input. -/
  finished : Bool := false

namespace Lexer

/-- A lexer at the start of a text. -/
def ofText (text : String) : Lexer := { rest := text.toList }

/-- The next token. At the end of the text it is the end of the input, however
often it is asked for. -/
def nextToken (lexer : Lexer) : Token × Lexer :=
  let start := lexer.offset + byteLength (lexer.rest.takeWhile isSpacing)
  match lexer.rest.dropWhile isSpacing with
  | [] => (⟨.endOfInput, "", start⟩, { lexer with rest := [], offset := start })
  | c :: cs =>
      let piece := Piece.cut c cs
      (⟨piece.kind, piece.literal, start⟩,
        { lexer with rest := piece.rest, offset := start + byteLength piece.span })

/-- The next token of an iteration, which ends after the end of the input. -/
def next? (lexer : Lexer) : Option Token × Lexer :=
  if lexer.finished then (none, lexer)
  else
    let (token, after) := lexer.nextToken
    (some token, { after with finished := token.kind == .endOfInput })

/-- Every token but the end of the input shortens the text. -/
theorem rest_length_nextToken_lt (lexer : Lexer)
    (h : lexer.nextToken.1.kind ≠ .endOfInput) :
    lexer.nextToken.2.rest.length < lexer.rest.length := by
  unfold nextToken at h ⊢
  have hDrop := (List.dropWhile_suffix isSpacing (l := lexer.rest)).length_le
  split
  · rename_i hRest
    simp [hRest] at h
  · rename_i c cs hRest
    rw [hRest] at hDrop
    exact Nat.lt_of_lt_of_le (Piece.rest_length_lt c cs) hDrop

/-- The tokens up to and with the end of the input. -/
def tokens (lexer : Lexer) : List Token :=
  if lexer.finished then []
  else
    match _hNext : lexer.nextToken with
    | (token, after) =>
        if _hEnd : token.kind = .endOfInput then [token] else token :: after.tokens
termination_by lexer.rest.length
decreasing_by
  have hShorter := lexer.rest_length_nextToken_lt (by simpa [_hNext] using _hEnd)
  simpa [_hNext] using hShorter

/-- The tokens up to and with the end of the input, unless more than `limit` come before
it. The text is read no further than the first token too many. -/
def upTo? : Nat → Lexer → Option (List Token)
  | limit, lexer =>
      match lexer.next? with
      | (none, _) => some []
      | (some token, after) =>
          if token.kind = .endOfInput then some [token]
          else
            match limit with
            | 0 => none
            | limit + 1 => (upTo? limit after).map (token :: ·)

end Lexer

/-- The tokens of a formula text; the last of them is the end of the input. -/
def tokenize (text : String) : List Token := (Lexer.ofText text).tokens

end NoteSheet
