import NoteSheet.Evaluation
import NoteSheet.Proofs.Grammar

/-!
# Spacing between tokens

Tokens may be written out again with other spacing around them: any amount in front of the
first and after the last, and some between each two. No number and no word goes on past
spacing, so every token is cut off where it was before (`exists_cuts_spacedOut`). Only its
offset is another, and the readers never look at offsets (`Reads.unplaced`): they hand them on
to the errors, which write them at the end of their messages.

Main statement: `spacing_changes_offsets_only`.
-/

namespace NoteSheet

/-! ## Without places -/

/-- A token of the same kind and literal, placed at the start of the text. -/
def Token.unplaced (token : Token) : Token := { token with offset := 0 }

/-- A parse error about the same token, placed at the start of the text. -/
def ParseError.unplaced : ParseError → ParseError
  | tooLong => tooLong
  | unexpected token => unexpected token.unplaced
  | unclosed found => unclosed found.unplaced
  | invalidReference fault => invalidReference fault

def FormulaError.unplaced : FormulaError → FormulaError
  | parse fault => parse fault.unplaced
  | reference fault => reference fault

/-- What is read, with the tokens left over or the fault placed at the start of the text. -/
def Reading.unplaced : Reading → Reading
  | .ok (e, rest) => .ok (e, rest.map Token.unplaced)
  | .error fault => .error fault.unplaced

theorem Token.eq_of_unplaced {token other : Token} (h : token.unplaced = other.unplaced) :
    other = { token with offset := other.offset } := by
  obtain ⟨hKind, hLiteral, -⟩ := Token.mk.inj h
  cases other
  exact congrArg₂ (fun kind literal => Token.mk kind literal _) hKind.symm hLiteral.symm

/-! ## The texts of errors -/

/-- Two messages that differ in no more than the offset at their end. -/
def SameButOffset (message other : String) : Prop :=
  message = other ∨
    ∃ front offset offset', message = front ++ Nat.repr offset ∧ other = front ++ Nat.repr offset'

namespace ParseError

theorem exists_message_unexpected (token : Token) :
    ∃ front, ∀ offset, (unexpected { token with offset }).message = front ++ Nat.repr offset := by
  by_cases hEnd : token.kind = .endOfInput
  · exact ⟨"Parse error: Unexpected end of input at offset ", fun offset => if_pos hEnd⟩
  · exact ⟨"Parse error: Unexpected " ++ token.kind.name ++ " '" ++ token.literal ++
      "' at offset ", fun offset => if_neg hEnd⟩

/-- **Messages of errors about one token** differ in its offset at most. -/
theorem sameButOffset {fault other : ParseError} (h : fault.unplaced = other.unplaced) :
    SameButOffset fault.message other.message := by
  cases fault with
  | tooLong =>
      cases other <;> first | exact .inl rfl | cases h
  | unexpected token =>
      cases other with
      | unexpected found =>
          obtain ⟨front, hFront⟩ := exists_message_unexpected token
          rw [Token.eq_of_unplaced (unexpected.inj h)]
          exact .inr ⟨front, token.offset, found.offset, hFront token.offset, hFront found.offset⟩
      | _ => cases h
  | unclosed token =>
      cases other with
      | unclosed found =>
          rw [Token.eq_of_unplaced (unclosed.inj h)]
          exact .inr ⟨_, token.offset, found.offset, rfl, rfl⟩
      | _ => cases h
  | invalidReference fault =>
      cases other with
      | invalidReference found => exact .inl (congrArg message h)
      | _ => cases h

end ParseError

theorem FormulaError.sameButOffset {fault other : FormulaError}
    (h : fault.unplaced = other.unplaced) : SameButOffset fault.message other.message := by
  cases fault with
  | parse fault =>
      cases other with
      | parse found => exact ParseError.sameButOffset (parse.inj h)
      | reference _ => cases h
  | reference fault =>
      cases other with
      | parse _ => cases h
      | reference found => exact .inl (congrArg message h)

/-! ## Readers do not look at places -/

theorem Token.current_unplaced (ts : List Token) :
    Token.current (ts.map Token.unplaced) = (Token.current ts).unplaced := by
  cases ts <;> rfl

theorem Atom.unplaced {token : Token} {e : Expr} (h : Atom token e) : Atom token.unplaced e := by
  cases h with
  | number kind => exact .number kind
  | absolute kind names => exact .absolute kind names
  | relative kind names => exact .relative kind names

/-- **Every way of a reading** is also one without the places of the tokens. -/
theorem Reads.unplaced {reader : Reader} {ts : List Token} {result : Reading}
    (h : Reads reader ts result) :
    Reads reader (ts.map Token.unplaced) (Reading.unplaced result) := by
  induction h with
  | chain _ _ ihFirst ihMore => exact .chain ihFirst ihMore
  | chainFault _ ihFirst => exact .chainFault ihFirst
  | stop ends => exact .stop (by rwa [Token.current_unplaced])
  | more joins _ _ ihOperand ihMore => exact .more joins ihOperand ihMore
  | moreFault joins _ ihOperand => exact .moreFault joins ihOperand
  | negate minus _ ihOperand => exact .negate minus ihOperand
  | negateFault minus _ ihOperand => exact .negateFault minus ihOperand
  | plain minus _ ih => exact .plain (by rwa [Token.current_unplaced]) ih
  | atom atom => exact .atom atom.unplaced
  | malformed malformed => exact .malformed malformed
  | @group _ closing rest after e opens closes _ ih =>
      have hInner : Reads (.whole (.chain .term)) (rest.map Token.unplaced)
          (.ok (e, closing.unplaced :: after.map Token.unplaced)) := ih
      have hCloses : closing.unplaced.kind = .rightParen := closes
      exact .group opens hCloses hInner
  | groupFault opens _ ih => exact .groupFault opens ih
  | unclosed opens closes _ ih =>
      rw [Reading.unplaced, ParseError.unplaced, ← Token.current_unplaced]
      exact .unclosed opens (by rwa [Token.current_unplaced]) ih
  | unexpected kind =>
      rw [Reading.unplaced, ParseError.unplaced, ← Token.current_unplaced]
      exact .unexpected (by rwa [Token.current_unplaced])

namespace Expr

theorem parseTokens_unplaced (ts : List Token) :
    parseTokens (ts.map Token.unplaced) = (parseTokens ts).mapError ParseError.unplaced := by
  match hParse : parseTokens ts with
  | .ok e =>
      obtain ⟨rest, hReads⟩ := parseTokens_eq_ok_iff.mp hParse
      exact parseTokens_eq_ok_iff.mpr ⟨_, hReads.unplaced⟩
  | .error fault =>
      exact parseTokens_eq_error_iff.mpr (parseTokens_eq_error_iff.mp hParse).unplaced

variable {text spaced : String}

/-- Texts of the same tokens are read alike, wherever the tokens are. -/
theorem parse_of_unplaced
    (h : (tokenize spaced).map Token.unplaced = (tokenize text).map Token.unplaced) :
    (parse spaced).mapError ParseError.unplaced = (parse text).mapError ParseError.unplaced := by
  have hLength : (pieces spaced).length = (pieces text).length := by
    have hTokens := congrArg List.length h
    rw [List.length_map, List.length_map, tokenize_eq, tokenize_eq, List.length_append,
      List.length_append] at hTokens
    exact Nat.add_right_cancel hTokens
  rcases Nat.lt_or_ge maxTokens (pieces text).length with hMany | hFew
  · rw [parse_of_lt hMany, parse_of_lt (hLength ▸ hMany)]
  · rw [parse_of_le hFew, parse_of_le (hLength ▸ hFew), ← parseTokens_unplaced, h,
      parseTokens_unplaced]

end Expr

/-- Texts that are read alike come to the same outcome wherever they are evaluated. -/
theorem Scope.evaluateText_of_unplaced {text spaced : String}
    (h : (Expr.parse spaced).mapError ParseError.unplaced =
      (Expr.parse text).mapError ParseError.unplaced) (scope : Scope) :
    (scope.evaluateText spaced).mapError FormulaError.unplaced =
      (scope.evaluateText text).mapError FormulaError.unplaced := by
  unfold evaluateText
  cases hSpaced : Expr.parse spaced with
  | error other =>
      cases hText : Expr.parse text with
      | error fault =>
          rw [hSpaced, hText] at h
          exact congrArg (fun fault => Except.error (FormulaError.parse fault)) (Except.error.inj h)
      | ok e =>
          rw [hSpaced, hText] at h
          cases h
  | ok e =>
      cases hText : Expr.parse text with
      | error fault =>
          rw [hSpaced, hText] at h
          cases h
      | ok e' =>
          rw [hSpaced, hText] at h
          rw [Except.ok.inj h]

/-! ## Other spacing -/

/-- Tokens written out, each after some spacing of its own, and the spacing at the end. -/
def spacedOut (spans : List (List Char × Token)) (tail : List Char) : List Char :=
  spans.flatMap (fun entry => entry.1 ++ entry.2.span.toList) ++ tail

/-- Spacing ends every number and every word. -/
theorem breaks_of_isSpacing {c : Char} (h : isSpacing c = true) (rest : List Char) :
    Breaks (c :: rest) :=
  .of_mem (isSpacing_iff.mp h) rest (by decide)

variable {spans : List (List Char × Token)} {tail : List Char}

theorem breaks_spacedOut (hSpacing : ∀ entry ∈ spans, ∀ c ∈ entry.1, isSpacing c = true)
    (hTail : ∀ c ∈ tail, isSpacing c = true) (hApart : ∀ entry ∈ spans, entry.1 ≠ []) :
    Breaks (spacedOut spans tail) := by
  cases spans with
  | nil =>
      cases tail with
      | nil => exact .nil
      | cons c rest => exact breaks_of_isSpacing (hTail c List.mem_cons_self) rest
  | cons entry spans =>
      obtain ⟨gap, token⟩ := entry
      cases gap with
      | nil => exact absurd rfl (hApart _ List.mem_cons_self)
      | cons c gap =>
          exact breaks_of_isSpacing (hSpacing _ List.mem_cons_self c List.mem_cons_self) _

/-- **Tokens survive other spacing**: written out with spacing between each two, they are cut off
again, at other places. -/
theorem exists_cuts_spacedOut (start : Nat)
    (hPieces : ∀ entry ∈ spans, ∃ after, IsPiece entry.2.kind entry.2.span.toList after)
    (hSpacing : ∀ entry ∈ spans, ∀ c ∈ entry.1, isSpacing c = true)
    (hTail : ∀ c ∈ tail, isSpacing c = true) (hApart : ∀ entry ∈ spans.tail, entry.1 ≠ []) :
    ∃ tokens, Cuts start (spacedOut spans tail) tokens ∧
      tokens.map Token.unplaced = spans.map fun entry => entry.2.unplaced := by
  induction spans generalizing start with
  | nil => exact ⟨[], .done hTail, rfl⟩
  | cons entry spans ih =>
      obtain ⟨gap, token⟩ := entry
      let moved : Token := { token with offset := start + byteLength gap }
      have hMore : ∀ entry ∈ spans, ∀ c ∈ entry.1, isSpacing c = true := fun entry hMem =>
        hSpacing entry (List.mem_cons_of_mem _ hMem)
      obtain ⟨_, hPiece⟩ := hPieces _ List.mem_cons_self
      have hMoved : IsPiece moved.kind moved.span.toList (spacedOut spans tail) :=
        hPiece.of_breaks (breaks_spacedOut hMore hTail hApart)
      obtain ⟨tokens, hCuts, hTokens⟩ := ih moved.stop
        (fun entry hMem => hPieces entry (List.mem_cons_of_mem _ hMem)) hMore
        (fun entry hMem => hApart entry (List.mem_of_mem_tail hMem))
      refine ⟨moved :: tokens, ?_, congrArg (List.cons token.unplaced) hTokens⟩
      have hText : spacedOut ((gap, token) :: spans) tail =
          gap ++ moved.span.toList ++ spacedOut spans tail := by
        simp [spacedOut, moved, Token.span]
      rw [hText]
      exact .piece (hSpacing _ List.mem_cons_self) rfl hMoved hCuts

theorem tokenize_spacedOut {text spaced : String} (hSpans : spans.map Prod.snd = pieces text)
    (hSpacing : ∀ entry ∈ spans, ∀ c ∈ entry.1, isSpacing c = true)
    (hTail : ∀ c ∈ tail, isSpacing c = true) (hApart : ∀ entry ∈ spans.tail, entry.1 ≠ [])
    (hSpaced : spaced.toList = spacedOut spans tail) :
    (tokenize spaced).map Token.unplaced = (tokenize text).map Token.unplaced := by
  have hPieces : ∀ entry ∈ spans, ∃ after, IsPiece entry.2.kind entry.2.span.toList after := by
    intro entry hMem
    have hPiece : entry.2 ∈ pieces text := hSpans ▸ List.mem_map_of_mem hMem
    obtain ⟨_, after, _, _, hCut⟩ := (cuts_pieces text).placed hPiece
    exact ⟨after, hCut⟩
  obtain ⟨tokens, hCuts, hTokens⟩ := exists_cuts_spacedOut 0 hPieces hSpacing hTail hApart
  rw [← hSpaced] at hCuts
  rw [tokenize_eq, tokenize_eq, pieces_of_cuts hCuts, List.map_append, List.map_append, hTokens,
    ← hSpans, List.map_map]
  rfl

/-- **Spacing never changes a formula.** A text whose tokens are those of another, written out
with any spacing in front of the first and after the last and with some between each two, has
tokens of the same kinds and literals. It is read as the same expression or refused for the same
reason, and it comes to the same outcome wherever it is evaluated. Only the offsets in errors
differ, and in the messages only those at their ends. -/
theorem spacing_changes_offsets_only (text spaced : String) (spans : List (List Char × Token))
    (tail : List Char) (hSpans : spans.map Prod.snd = pieces text)
    (hSpacing : ∀ entry ∈ spans, ∀ c ∈ entry.1, c ∈ [' ', '\t', '\r', '\n'])
    (hTail : ∀ c ∈ tail, c ∈ [' ', '\t', '\r', '\n']) (hApart : ∀ entry ∈ spans.tail, entry.1 ≠ [])
    (hSpaced : spaced.toList = spacedOut spans tail) :
    (tokenize spaced).map Token.unplaced = (tokenize text).map Token.unplaced ∧
      (Expr.parse spaced).mapError ParseError.unplaced =
        (Expr.parse text).mapError ParseError.unplaced ∧
      ∀ scope : Scope, (scope.evaluateText spaced).mapError FormulaError.unplaced =
          (scope.evaluateText text).mapError FormulaError.unplaced ∧
        ∀ fault other, scope.evaluateText text = .error fault →
          scope.evaluateText spaced = .error other →
            SameButOffset fault.message other.message := by
  have hTokens := tokenize_spacedOut hSpans
    (fun entry hMem c hGap => isSpacing_iff.mpr (hSpacing entry hMem c hGap))
    (fun c hMem => isSpacing_iff.mpr (hTail c hMem)) hApart hSpaced
  have hParse := Expr.parse_of_unplaced hTokens
  refine ⟨hTokens, hParse, fun scope => ?_⟩
  have hOutcome := Scope.evaluateText_of_unplaced hParse scope
  refine ⟨hOutcome, fun fault other hText hOther => ?_⟩
  rw [hText, hOther] at hOutcome
  exact FormulaError.sameButOffset (Except.error.inj hOutcome).symm

/-- Spacing between two adjacent numbers moves the place where a parenthesis should close. -/
theorem parse_spaced_unclosed :
    (Expr.parse "(\t1.2 .3\n$U é ").mapError ParseError.unplaced =
      (Expr.parse "(1.2.3$Ué").mapError ParseError.unplaced := by
  let spans : List (List Char × Token) :=
    [([], ⟨.leftParen, "(", 0⟩), (['\t'], ⟨.number, "1.2", 1⟩), ([' '], ⟨.number, ".3", 4⟩),
      (['\n'], ⟨.variableRef, "U", 6⟩), ([' '], ⟨.illegal, "é", 8⟩)]
  exact (spacing_changes_offsets_only "(1.2.3$Ué" "(\t1.2 .3\n$U é " spans [' ']
    (by decide +kernel) (by simp [spans]) (by simp) (by simp [spans]) (by decide)).2.1

end NoteSheet
