import Mathlib.Data.List.TakeWhile
import NoteSheet.Proofs.Pieces

/-!
# A text is its tokens

The tokens of a text are its pieces in order, with nothing but spacing between them.
`Cuts` lists the pieces of a text from some byte on; it is what one call of the lexer adds
to, and what a whole run of the lexer comes to (`Lexer.tokens_of_cuts`). As every text has
one such list (`exists_cuts`), the lexer loses nothing, reads nothing twice and refuses
nothing.

Main statement: `tokenize_isTokenization`.
-/

namespace NoteSheet

/-! ## Spans -/

/-- The text that a token was cut from: its literal, with the `$` put back in front of a
variable. -/
def Token.span (token : Token) : String :=
  if token.kind = .variableRef then "$" ++ token.literal else token.literal

/-- The byte at which the span of a token ends. -/
def Token.stop (token : Token) : Nat := token.offset + token.span.utf8ByteSize

/-- The token at the end of a text. -/
def Token.endAt (offset : Nat) : Token := ⟨.endOfInput, "", offset⟩

theorem byteLength_eq (cs : List Char) : byteLength cs = (String.ofList cs).utf8ByteSize := by
  induction cs with
  | nil => rfl
  | cons c cs ih =>
      rw [String.ofList_cons, String.utf8ByteSize_append, String.utf8ByteSize_singleton, ← ih]
      rfl

theorem byteLength_toList (text : String) : byteLength text.toList = text.utf8ByteSize := by
  rw [byteLength_eq, String.ofList_toList]

theorem byteLength_append (cs ds : List Char) :
    byteLength (cs ++ ds) = byteLength cs + byteLength ds := by
  rw [byteLength_eq, String.ofList_append, String.utf8ByteSize_append, ← byteLength_eq,
    ← byteLength_eq]

theorem byteLength_cons (c : Char) (cs : List Char) :
    byteLength (c :: cs) = byteLength [c] + byteLength cs :=
  byteLength_append [c] cs

/-- The literal is what the span says it is. -/
theorem Piece.literal_span (token : Token) (after : List Char) :
    Piece.literal ⟨token.kind, token.span.toList, after⟩ = token.literal := by
  unfold literal Token.span
  split
  · rename_i hKind
    rw [if_pos hKind]
    simp
  · rename_i hKind
    rw [if_neg hKind, String.ofList_toList]

namespace IsPiece

variable {kind : TokenKind} {span after : List Char}

theorem ne_nil (h : IsPiece kind span after) : span ≠ [] := by
  cases h with
  | number longest => exact longest.holds.ne_nil
  | reference _ _ => simp
  | identifier longest =>
      obtain ⟨-, c, word, rfl, -⟩ := longest.holds
      simp
  | single _ _ _ _ _ => simp

/-- The end of the input is no piece. -/
theorem kind_ne_endOfInput (h : IsPiece kind span after) : kind ≠ .endOfInput := by
  obtain ⟨c, cs, -, -, hCut⟩ := h.cut_eq
  have hKind := Piece.kind_ne_endOfInput c cs
  rwa [hCut] at hKind

/-- The span of a token is the piece that it was cut from. -/
theorem span_token (h : IsPiece kind span after) (offset : Nat) :
    (Token.span ⟨kind, Piece.literal ⟨kind, span, after⟩, offset⟩).toList = span := by
  unfold Token.span Piece.literal
  by_cases hKind : kind = .variableRef
  · subst hKind
    obtain ⟨word, rfl, -⟩ := h.of_reference (by simp)
    simp
  · rw [if_neg hKind]
    split
    · rename_i hVariable
      exact absurd hVariable hKind
    · rw [String.toList_ofList]

end IsPiece

/-! ## One call of the lexer -/

/-- The pieces of a text from some byte on, with spacing around them. -/
inductive Cuts : Nat → List Char → List Token → Prop
  | done {start : Nat} {gap : List Char} (spacing : ∀ c ∈ gap, isSpacing c = true) :
      Cuts start gap []
  | piece {start : Nat} {gap after : List Char} {token : Token} {tokens : List Token}
      (spacing : ∀ c ∈ gap, isSpacing c = true) (offset : token.offset = start + byteLength gap)
      (cut : IsPiece token.kind token.span.toList after) (more : Cuts token.stop after tokens) :
      Cuts start (gap ++ token.span.toList ++ after) (token :: tokens)

/-- A piece in front of others, with no spacing before it. -/
theorem Cuts.cons {kind : TokenKind} {span after : List Char} {start : Nat} {tokens : List Token}
    (hPiece : IsPiece kind span after) (hKind : kind ≠ .variableRef)
    (hMore : Cuts (start + byteLength span) after tokens) :
    Cuts start (span ++ after) (⟨kind, String.ofList span, start⟩ :: tokens) := by
  let token : Token := ⟨kind, String.ofList span, start⟩
  have hSpan : token.span.toList = span := by
    rw [Token.span, if_neg hKind]
    exact String.toList_ofList
  have hStop : token.stop = start + byteLength span := by
    rw [Token.stop, ← byteLength_toList, hSpan]
  have hCuts : Cuts start ([] ++ token.span.toList ++ after) (token :: tokens) :=
    .piece (by simp) rfl (hSpan ▸ hPiece) (hStop ▸ hMore)
  rwa [hSpan, List.nil_append] at hCuts

/-- A symbol in front of other pieces is a token of its own. -/
theorem Cuts.symbol {c : Char} {kind : TokenKind} {after : List Char} {start : Nat}
    {tokens : List Token} (hSymbol : (c, kind) ∈ symbols)
    (hMore : Cuts (start + byteLength [c]) after tokens) :
    ∃ token : Token, token.kind = kind ∧ Cuts start (c :: after) (token :: tokens) := by
  have hAll : ∀ entry ∈ symbols, entry.2 ≠ .variableRef := by decide
  exact ⟨_, rfl, .cons (.of_symbol hSymbol after) (hAll _ hSymbol) hMore⟩

namespace Lexer

/-- A lexer that is still to read a text from some byte on. -/
abbrev reading (start : Nat) (cs : List Char) : Lexer := { rest := cs, offset := start }

/-- At the end of the text there is only spacing left. -/
theorem nextToken_of_spacing {start : Nat} {gap : List Char}
    (hSpacing : ∀ c ∈ gap, isSpacing c = true) :
    (reading start gap).nextToken =
      (.endAt (start + byteLength gap), reading (start + byteLength gap) []) := by
  have hTake : gap.takeWhile isSpacing = gap := List.takeWhile_eq_self_iff.mpr hSpacing
  have hDrop : gap.dropWhile isSpacing = [] := List.dropWhile_eq_nil_iff.mpr hSpacing
  unfold nextToken
  rw [hDrop, hTake]
  rfl

/-- **Step**: one call gives the piece after the spacing and goes on behind it. -/
theorem nextToken_of_piece {start : Nat} {gap after : List Char} {token : Token}
    (hSpacing : ∀ c ∈ gap, isSpacing c = true) (hOffset : token.offset = start + byteLength gap)
    (hCut : IsPiece token.kind token.span.toList after) :
    (reading start (gap ++ token.span.toList ++ after)).nextToken =
      (token, reading token.stop after) := by
  obtain ⟨c, cs, hText, hBegins, hPiece⟩ := hCut.cut_eq
  have hTake : (gap ++ c :: cs).takeWhile isSpacing = gap := by
    rw [List.takeWhile_append_of_pos hSpacing, List.takeWhile_cons_of_neg (by simp [hBegins]),
      List.append_nil]
  have hDrop : (gap ++ c :: cs).dropWhile isSpacing = c :: cs := by
    rw [List.dropWhile_append_of_pos hSpacing, List.dropWhile_cons_of_neg (by simp [hBegins])]
  have hStop : start + byteLength gap + byteLength token.span.toList = token.stop := by
    rw [Token.stop, hOffset, byteLength_toList]
  unfold nextToken
  rw [List.append_assoc, hText, hTake, hDrop]
  dsimp only
  rw [hPiece, Piece.literal_span, hStop, ← hOffset]

end Lexer

/-- The end of a text, counted from the end of its first piece. -/
theorem byteLength_cut {start : Nat} {gap after : List Char} {token : Token}
    (hOffset : token.offset = start + byteLength gap) :
    start + byteLength (gap ++ token.span.toList ++ after) = token.stop + byteLength after := by
  rw [Token.stop, hOffset, byteLength_append, byteLength_append, byteLength_toList]
  omega

/-- Every text has a list of pieces. -/
theorem exists_cuts (start : Nat) (cs : List Char) : ∃ pieces, Cuts start cs pieces := by
  match hDrop : cs.dropWhile isSpacing with
  | [] => exact ⟨[], .done (List.dropWhile_eq_nil_iff.mp hDrop)⟩
  | c :: rest =>
      have hBegins : isSpacing c = false := by
        have hHead := List.head?_dropWhile_not isSpacing cs
        rw [hDrop] at hHead
        exact hHead
      -- The token is what the lexer makes of the piece at the front.
      let piece := Piece.cut c rest
      let token : Token :=
        ⟨piece.kind, piece.literal, start + byteLength (cs.takeWhile isSpacing)⟩
      have hPiece : IsPiece piece.kind piece.span piece.rest := .of_cut hBegins rest
      have hSpan : token.span.toList = piece.span := hPiece.span_token _
      have hText : cs.takeWhile isSpacing ++ token.span.toList ++ piece.rest = cs := by
        rw [hSpan, List.append_assoc, Piece.span_append_rest, ← hDrop,
          List.takeWhile_append_dropWhile]
      have hShorter : piece.rest.length < cs.length := by
        have hRest := Piece.rest_length_lt c rest
        have hLe := (List.dropWhile_suffix isSpacing (l := cs)).length_le
        rw [hDrop] at hLe
        exact Nat.lt_of_lt_of_le hRest hLe
      obtain ⟨pieces, hMore⟩ := exists_cuts token.stop piece.rest
      refine ⟨token :: pieces, ?_⟩
      rw [← hText]
      exact .piece (fun d hMem => List.all_eq_true.mp List.all_takeWhile d hMem) rfl
        (hSpan ▸ hPiece) hMore
termination_by cs.length

/-! ## Whole runs of the lexer -/

namespace Lexer

theorem tokens_of_end {lexer : Lexer} (hFinished : lexer.finished = false)
    (hEnd : lexer.nextToken.1.kind = .endOfInput) : lexer.tokens = [lexer.nextToken.1] := by
  rw [tokens, if_neg (by simp [hFinished])]
  split
  rename_i token after hNext
  rw [hNext] at hEnd ⊢
  rw [dif_pos hEnd]

theorem tokens_of_next {lexer : Lexer} (hFinished : lexer.finished = false)
    (hNext : lexer.nextToken.1.kind ≠ .endOfInput) :
    lexer.tokens = lexer.nextToken.1 :: lexer.nextToken.2.tokens := by
  rw [tokens, if_neg (by simp [hFinished])]
  split
  rename_i token after hToken
  rw [hToken] at hNext ⊢
  rw [dif_neg hNext]

variable {start : Nat} {cs : List Char} {pieces : List Token}

/-- **Run**: the tokens are the pieces, and the end of the input behind all of them. -/
theorem tokens_of_cuts (h : Cuts start cs pieces) :
    (reading start cs).tokens = pieces ++ [.endAt (start + byteLength cs)] := by
  induction h with
  | @done start gap spacing =>
      have hNext : (reading start gap).nextToken = _ := nextToken_of_spacing spacing
      rw [tokens_of_end rfl (by rw [hNext]; rfl), hNext]
      rfl
  | @piece start gap after token tokens spacing offset cut more ih =>
      have hNext := nextToken_of_piece spacing offset cut
      have hKind : (reading start (gap ++ token.span.toList ++ after)).nextToken.1.kind ≠
          .endOfInput := by
        rw [hNext]
        exact cut.kind_ne_endOfInput
      rw [tokens_of_next rfl hKind, hNext, ih, byteLength_cut offset]
      rfl

/-- **Reading with a limit** comes to the same tokens, or to nothing when there are more of
them before the end of the input. -/
theorem upTo?_of_cuts (h : Cuts start cs pieces) (limit : Nat) :
    (reading start cs).upTo? limit =
      if pieces.length ≤ limit then some (pieces ++ [.endAt (start + byteLength cs)])
      else none := by
  induction h generalizing limit with
  | @done start gap spacing =>
      have hNext : (reading start gap).next? =
          (some (.endAt (start + byteLength gap)),
            { reading (start + byteLength gap) [] with finished := true }) := by
        unfold next?
        rw [if_neg (by simp), nextToken_of_spacing spacing]
        rfl
      unfold upTo?
      rw [hNext]
      exact (if_pos (Nat.zero_le limit)).symm
  | @piece start gap after token tokens spacing offset cut more ih =>
      have hKind := cut.kind_ne_endOfInput
      have hNext : (reading start (gap ++ token.span.toList ++ after)).next? =
          (some token, reading token.stop after) := by
        unfold next?
        rw [if_neg (by simp), nextToken_of_piece spacing offset cut]
        simp [hKind]
      unfold upTo?
      rw [hNext]
      dsimp only
      rw [if_neg hKind]
      cases limit with
      | zero => simp
      | succ limit =>
          dsimp only
          rw [ih, byteLength_cut offset]
          by_cases hLimit : tokens.length ≤ limit
          · rw [if_pos hLimit, if_pos (by simpa using hLimit)]
            rfl
          · rw [if_neg hLimit, if_neg (by simpa using hLimit)]
            rfl

end Lexer

/-- The tokens of a text before the end of the input. -/
def pieces (text : String) : List Token := (tokenize text).dropLast

theorem cuts_pieces (text : String) : Cuts 0 text.toList (pieces text) := by
  obtain ⟨tokens, hCuts⟩ := exists_cuts 0 text.toList
  have hTokens : tokenize text = tokens ++ [.endAt (0 + byteLength text.toList)] :=
    Lexer.tokens_of_cuts hCuts
  rwa [pieces, hTokens, List.dropLast_concat]

/-- The tokens of a text are its pieces and the end of the input behind its last byte. -/
theorem tokenize_eq (text : String) :
    tokenize text = pieces text ++ [.endAt text.utf8ByteSize] := by
  have hTokens := Lexer.tokens_of_cuts (cuts_pieces text)
  rwa [byteLength_toList, Nat.zero_add] at hTokens

/-- A text that is cut into pieces has these pieces. -/
theorem pieces_of_cuts {text : String} {tokens : List Token} (h : Cuts 0 text.toList tokens) :
    pieces text = tokens := by
  have hTokens : tokenize text = tokens ++ [.endAt (0 + byteLength text.toList)] :=
    Lexer.tokens_of_cuts h
  rw [pieces, hTokens, List.dropLast_concat]

/-! ## Where tokens are -/

/-- A character of two texts in a row is in the first or in the second. -/
theorem append_eq_append_cons {α : Type} {xs ys before after : List α} {x : α}
    (h : xs ++ ys = before ++ x :: after) :
    (∃ mid, xs = before ++ x :: mid ∧ after = mid ++ ys) ∨
      ∃ mid, before = xs ++ mid ∧ ys = mid ++ x :: after := by
  rcases List.append_eq_append_iff.mp h with ⟨mid, hBefore, hYs⟩ | ⟨mid, hXs, hAfter⟩
  · exact Or.inr ⟨mid, hBefore, hYs⟩
  · cases mid with
    | nil =>
        right
        refine ⟨[], ?_, ?_⟩
        · simpa using hXs.symm
        · simpa using hAfter.symm
    | cons y mid =>
        obtain ⟨rfl, rfl⟩ := List.cons.inj hAfter
        exact Or.inl ⟨mid, hXs, rfl⟩

namespace Cuts

variable {start : Nat} {cs : List Char} {tokens : List Token}

/-- A token spans characters of the text, from its offset on. -/
theorem placed (h : Cuts start cs tokens) {token : Token} (hMem : token ∈ tokens) :
    ∃ before after, cs = before ++ token.span.toList ++ after ∧
      token.offset = start + byteLength before ∧
      IsPiece token.kind token.span.toList after := by
  induction h with
  | done _ => cases hMem
  | @piece start gap after head tokens spacing offset cut more ih =>
      rcases List.mem_cons.mp hMem with rfl | hMem
      · exact ⟨gap, after, rfl, offset, cut⟩
      · obtain ⟨before, rest, rfl, hOffset, hCut⟩ := ih hMem
        refine ⟨gap ++ head.span.toList ++ before, rest, by simp, ?_, hCut⟩
        rw [byteLength_cut offset, hOffset]

theorem start_le (h : Cuts start cs tokens) {token : Token} (hMem : token ∈ tokens) :
    start ≤ token.offset := by
  obtain ⟨before, -, -, hOffset, -⟩ := h.placed hMem
  omega

/-- Each token ends before the next one begins. -/
theorem ordered (h : Cuts start cs tokens) :
    tokens.Pairwise fun first second =>
      first.offset < second.offset ∧ first.stop ≤ second.offset := by
  induction h with
  | done _ => exact .nil
  | @piece _ _ _ token _ _ _ cut more ih =>
      have hBytes : 0 < token.span.utf8ByteSize := by
        rw [Nat.pos_iff_ne_zero, Ne, String.utf8ByteSize_eq_zero_iff, ← String.toList_eq_nil_iff]
        exact cut.ne_nil
      refine .cons ?_ ih
      intro later hMem
      have hLe := more.start_le hMem
      exact ⟨by unfold Token.stop at hLe; omega, hLe⟩

/-- **Nothing is lost**: a character of the text is spacing or belongs to a token. -/
theorem covered (h : Cuts start cs tokens) {before after : List Char} {c : Char}
    (hText : cs = before ++ c :: after) :
    isSpacing c = true ∨ ∃ token ∈ tokens, token.offset ≤ start + byteLength before ∧
      start + byteLength before + c.utf8Size ≤ token.stop := by
  induction h generalizing before with
  | done spacing => exact Or.inl (spacing c (by simp [hText]))
  | @piece start gap rest token tokens spacing offset cut more ih =>
      have hStop : token.stop = start + byteLength gap + byteLength token.span.toList := by
        rw [Token.stop, offset, byteLength_toList]
      rw [List.append_assoc] at hText
      rcases append_eq_append_cons hText with ⟨mid, hGap, -⟩ | ⟨mid, rfl, hMid⟩
      · exact Or.inl (spacing c (by simp [hGap]))
      · rw [byteLength_append, ← Nat.add_assoc]
        rcases append_eq_append_cons hMid with ⟨tail, hSpan, -⟩ | ⟨tail, rfl, hTail⟩
        · have hBytes : byteLength token.span.toList =
              byteLength mid + (c.utf8Size + byteLength tail) := by
            rw [hSpan, byteLength_append]
            rfl
          exact Or.inr ⟨token, List.mem_cons_self, by omega, by omega⟩
        · rw [byteLength_append, ← Nat.add_assoc, ← hStop]
          exact (ih hTail).imp_right fun ⟨found, hMem, hFound⟩ =>
            ⟨found, List.mem_cons_of_mem token hMem, hFound⟩

end Cuts

/-! ## The tokens of a text -/

/-- What it means that tokens are all of a text, each as long as its class allows. -/
structure IsTokenization (text : String) (tokens : List Token) : Prop where
  /-- None of them is the end of the input. -/
  kind_ne : ∀ token ∈ tokens, token.kind ≠ .endOfInput
  /-- A token spans some characters of the text, those from its offset on. -/
  placed : ∀ token ∈ tokens, token.span ≠ "" ∧
    ∃ before after, text = before ++ token.span ++ after ∧
      before.utf8ByteSize = token.offset ∧ IsPiece token.kind token.span.toList after.toList
  /-- The spans are in the order of the text, and none overlaps another. -/
  ordered : tokens.Pairwise fun first second =>
    first.offset < second.offset ∧ first.stop ≤ second.offset
  /-- A character that no token spans is spacing. -/
  covered : ∀ before c after, text = before ++ String.singleton c ++ after →
    c ∈ [' ', '\t', '\r', '\n'] ∨
      ∃ token ∈ tokens, token.offset ≤ before.utf8ByteSize ∧
        before.utf8ByteSize + c.utf8Size ≤ token.stop

/-- **Lossless maximal munch**: the tokens of a text are the longest pieces of their classes,
one after the other with only spacing left out, and the end of the input behind the last
byte of the text. -/
theorem tokenize_isTokenization (text : String) :
    ∃ tokens, tokenize text = tokens ++ [⟨.endOfInput, "", text.utf8ByteSize⟩] ∧
      IsTokenization text tokens := by
  have hCuts := cuts_pieces text
  refine ⟨pieces text, tokenize_eq text, ?_, ?_, hCuts.ordered, ?_⟩
  · intro token hMem
    obtain ⟨before, after, -, -, hCut⟩ := hCuts.placed hMem
    exact hCut.kind_ne_endOfInput
  · intro token hMem
    obtain ⟨before, after, hText, hOffset, hCut⟩ := hCuts.placed hMem
    refine ⟨by simpa using hCut.ne_nil, String.ofList before, String.ofList after, ?_, ?_, ?_⟩
    · rw [← String.toList_inj]
      simpa using hText
    · rw [← byteLength_eq, hOffset, Nat.zero_add]
    · rwa [String.toList_ofList]
  · intro before c after hText
    have hChars : text.toList = before.toList ++ c :: after.toList := by
      rw [hText]
      simp
    have hCovered := hCuts.covered hChars
    rwa [isSpacing_iff, Nat.zero_add, byteLength_toList] at hCovered

end NoteSheet
