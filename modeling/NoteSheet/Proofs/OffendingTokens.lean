import NoteSheet.Proofs.Grammar

/-!
# The first offending token

The parser reads from left to right and never goes back. Where it gives up, it names the token
in front of it, and that is the earliest place where the text can be seen to be no formula: the
tokens before it are the front of something that is derived, and together with it they are not.

Where a reading gives up is decided by the tokens up to that place, and by the last of them
through its kind alone (`Reader.GivesUp`). So no derivation can begin with all of them, as the
parser would have read it (`Derives.reads`).

Main statement: `Expr.parse_names_offender`.
-/

namespace NoteSheet

/-! ## Tokens up to the end of the input -/

/-- Some tokens with the end of the input behind them. -/
def EndsInput (ts : List Token) : Prop :=
  ∃ front last, ts = front ++ [last] ∧ last.kind = .endOfInput

namespace EndsInput

variable {ts front rest : List Token} {token : Token}

/-- Tokens that are taken off the front leave the end of the input behind. -/
theorem behind (h : EndsInput (front ++ rest))
    (hFront : ∀ token ∈ front, token.kind ≠ .endOfInput) : EndsInput rest := by
  obtain ⟨before, last, hSplit, hLast⟩ := h
  obtain ⟨rest, rfl, -⟩ := exists_concat_of_append_eq hSplit.symm fun hMem =>
    hFront last hMem hLast
  exact ⟨rest, last, rfl, hLast⟩

theorem tail (h : EndsInput (token :: rest)) (hKind : token.kind ≠ .endOfInput) :
    EndsInput rest := by
  have hCons : EndsInput ([token] ++ rest) := h
  exact hCons.behind (by simpa using hKind)

theorem drop {n : Nat} (h : EndsInput ts) (hPlace : n < ts.length) : EndsInput (ts.drop n) := by
  obtain ⟨front, last, rfl, hLast⟩ := h
  rw [List.length_append, List.length_singleton] at hPlace
  rw [List.drop_append_of_le_length (Nat.le_of_lt_succ hPlace)]
  exact ⟨front.drop n, last, rfl, hLast⟩

theorem exists_cons (h : EndsInput ts) : ∃ token rest, ts = token :: rest := by
  obtain ⟨front, last, rfl, -⟩ := h
  exact List.exists_cons_of_ne_nil (by simp)

end EndsInput

theorem endsInput_tokenize (text : String) : EndsInput (tokenize text) :=
  ⟨pieces text, _, tokenize_eq text, rfl⟩

/-- The end of the input is the last token of a text and behind its last byte. -/
theorem eq_endAt_of_mem_tokenize {text : String} {token : Token} (hMem : token ∈ tokenize text)
    (hKind : token.kind = .endOfInput) : token = .endAt text.utf8ByteSize := by
  rw [tokenize_eq, List.mem_append, List.mem_singleton] at hMem
  refine hMem.resolve_left fun hPiece => ?_
  obtain ⟨before, after, -, -, hCut⟩ := (cuts_pieces text).placed hPiece
  exact hCut.kind_ne_endOfInput hKind

theorem Level.kind_ne_endOfInput {level : Level} {token : Token} {operator : Operator}
    (hJoins : (token.kind, operator) ∈ level.operators) : token.kind ≠ .endOfInput := by
  intro hEnd
  rw [hEnd] at hJoins
  revert hJoins
  cases level <;> cases operator <;> decide

/-! ## Where a reading gives up -/

/-- What has been read can be gone on with: there are tokens that make it an expression of the
category, or that make a chain longer to which it is added. -/
def Reader.Viable : Reader → List Token → Prop
  | whole category, before => ∃ more e, Derives category (before ++ more) e
  | tail level left, before => ∀ chain, Derives (.chain level) chain left →
      ∃ more e, Derives (.chain level) (chain ++ before ++ more) e

/-- A reader gets through some tokens and gives up at the one behind them, which it blames. Any
other token of the same kind would be blamed in its place, whatever came after it. -/
structure Reader.GivesUp (reader : Reader) (blame : Token → ParseError) (before : List Token)
    (token : Token) : Prop where
  viable : reader.Viable before
  decided : ∀ other rest, other.kind = token.kind →
    Reads reader (before ++ other :: rest) (.error (blame other))

/-- A fault blames one of some tokens, and the reader gives up there. -/
inductive Reader.Blames (reader : Reader) : List Token → ParseError → Prop
  | intro {blame : Token → ParseError} {after : List Token} {token : Token}
      (wording : blame = .unexpected ∨ blame = .unclosed) (before : List Token)
      (givesUp : reader.GivesUp blame before token) :
      Blames reader (before ++ token :: after) (blame token)

/-- Where the reader `inner` gives up, `outer` gives up that has called it behind `front`. -/
theorem Reader.Blames.outward {inner outer : Reader} {ts : List Token} {fault : ParseError}
    (h : inner.Blames ts fault) (front : List Token)
    (hViable : ∀ before, inner.Viable before → outer.Viable (front ++ before))
    (hReads : ∀ others fault, (Token.current others).kind = (Token.current ts).kind →
      Reads inner others (.error fault) → Reads outer (front ++ others) (.error fault)) :
    outer.Blames (front ++ ts) fault := by
  obtain @⟨blame, after, token, wording, before, givesUp⟩ := h
  rw [← List.append_assoc]
  refine .intro wording (front ++ before) ⟨hViable before givesUp.viable, ?_⟩
  intro other rest hKind
  rw [List.append_assoc]
  refine hReads _ _ ?_ (givesUp.decided other rest hKind)
  cases before with
  | nil => exact hKind
  | cons head before => rfl

/-- What is derived is read as well in front of other tokens that begin with the same kind. -/
theorem Derives.reads_before {category : Category} {front rest others : List Token} {e : Expr}
    (h : Derives category front e) (hStops : category.Stops rest)
    (hKind : (Token.current others).kind = (Token.current rest).kind) :
    Reads (.whole category) (front ++ others) (.ok (e, others)) := by
  apply h.reads
  unfold Category.Stops
  rw [hKind]
  exact hStops

namespace Reads

/-- **Blame**: a reading of tokens up to the end of the input, each reference among them one,
blames one of them when it fails. -/
theorem blames {reader : Reader} {ts : List Token} {fault : ParseError}
    (h : Reads reader ts (.error fault))
    (hFormed : ∀ token ∈ ts, ∀ reason, ¬ token.Malformed reason) (hEnds : EndsInput ts) :
    reader.Blames ts fault := by
  generalize hResult : (Except.error fault : Reading) = result at h
  induction h with
  | chain first _ _ ihMore =>
      have hStops := first.ended
      obtain ⟨front, rfl, hFront⟩ := first.covers
      have hMore := ihMore (fun token hMem => hFormed token (List.mem_append_right front hMem))
        (hEnds.behind hFront.kind_ne_endOfInput) hResult
      refine hMore.outward front (fun before hViable => hViable front (.operand hFront)) ?_
      intro others fault hKind hReads
      exact .chain (hFront.reads_before hStops hKind) hReads
  | chainFault _ ih =>
      refine (ih hFormed hEnds hResult).outward [] ?_ (fun _ _ _ hReads => .chainFault hReads)
      rintro before ⟨more, e, hMore⟩
      exact ⟨more, e, .operand hMore⟩
  | @more level _ _ token _ _ _ _ joins operand _ _ ihMore =>
      have hStops := operand.ended
      obtain ⟨front, rfl, hFront⟩ := operand.covers
      have hBehind := (hEnds.tail (Level.kind_ne_endOfInput joins)).behind
        hFront.kind_ne_endOfInput
      have hMore := ihMore
        (fun token hMem => hFormed token (.tail _ (List.mem_append_right front hMem)))
        hBehind hResult
      refine hMore.outward (token :: front) ?_ ?_
      · intro before hViable chain hChain
        obtain ⟨more, e, hLonger⟩ := hViable _ (.join hChain joins hFront)
        exact ⟨more, e, by simpa using hLonger⟩
      · intro others fault hKind hReads
        exact .more joins (hFront.reads_before hStops hKind) hReads
  | @moreFault level _ token _ _ _ joins _ ih =>
      have hOperand := ih (fun token hMem => hFormed token (.tail _ hMem))
        (hEnds.tail (Level.kind_ne_endOfInput joins)) hResult
      refine hOperand.outward [token] ?_ (fun _ _ _ hReads => .moreFault joins hReads)
      rintro before ⟨more, e, hMore⟩ chain hChain
      have hJoined := Derives.join hChain joins hMore
      exact ⟨more, _, by simpa using hJoined⟩
  | @negateFault token _ _ minus _ ih =>
      have hOperand := ih (fun token hMem => hFormed token (.tail _ hMem))
        (hEnds.tail (by simp [minus])) hResult
      refine hOperand.outward [token] ?_ (fun _ _ _ hReads => .negateFault minus hReads)
      rintro before ⟨more, e, hMore⟩
      exact ⟨more, _, .negate minus hMore⟩
  | plain minus _ ih =>
      refine (ih hFormed hEnds hResult).outward [] ?_ ?_
      · rintro before ⟨more, e, hMore⟩
        exact ⟨more, e, .plain hMore⟩
      · intro others fault hKind hReads
        exact .plain (hKind ▸ minus) hReads
  | malformed malformed => exact absurd malformed (hFormed _ List.mem_cons_self _)
  | @groupFault opening _ _ opens _ ih =>
      have hInner := ih (fun token hMem => hFormed token (.tail _ hMem))
        (hEnds.tail (by simp [opens])) hResult
      refine hInner.outward [opening] ?_ (fun _ _ _ hReads => .groupFault opens hReads)
      rintro before ⟨more, e, hMore⟩
      have hGroup : Derives .primary (opening :: (before ++ more) ++ [⟨.rightParen, ")", 0⟩])
          (.group e) := .group opens rfl hMore
      exact ⟨more ++ [⟨.rightParen, ")", 0⟩], _, by simpa using hGroup⟩
  | @unclosed opening _ _ e opens closes inner _ =>
      cases hResult
      have hStops := inner.ended
      obtain ⟨front, rfl, hFront⟩ := inner.covers
      have hBehind := (hEnds.tail (by simp [opens])).behind hFront.kind_ne_endOfInput
      obtain ⟨token, after, rfl⟩ := hBehind.exists_cons
      have hGroup : Derives .primary (opening :: front ++ [⟨.rightParen, ")", 0⟩]) (.group e) :=
        .group opens rfl hFront
      refine .intro (.inr rfl) (opening :: front) ⟨⟨_, _, hGroup⟩, ?_⟩
      intro other rest hKind
      have hRead : Reads (.whole (.chain .term)) (front ++ other :: rest)
          (.ok (e, other :: rest)) := hFront.reads_before hStops hKind
      have hCloses : (Token.current (other :: rest)).kind ≠ .rightParen := by
        show other.kind ≠ .rightParen
        rw [hKind]
        exact closes
      exact .unclosed opens hCloses hRead
  | unexpected kind =>
      cases hResult
      obtain ⟨token, after, rfl⟩ := hEnds.exists_cons
      have hNumber : Derives .primary [⟨.number, "0", 0⟩] _ := .atom (.number rfl)
      refine .intro (.inl rfl) [] ⟨⟨_, _, hNumber⟩, ?_⟩
      intro other rest hKind
      exact .unexpected fun hPrimary => kind (hKind ▸ hPrimary)
  | stop | negate | atom | group => cases hResult

end Reads

/-! ## Offending tokens -/

/-- How a message names a token: by its kind and by the byte at which it starts, and perhaps by
its literal. -/
def Token.NamedIn (token : Token) (message : String) : Prop :=
  ∃ complaint ∈ ["Unexpected ", "Expected ')' after expression. Got "],
    ∃ quotation ∈ ["", " '" ++ token.literal ++ "'"],
      message = "Parse error: " ++ complaint ++ token.kind.name ++ quotation ++ " at offset " ++
        Nat.repr token.offset

/-- A token behind which there is no formula: the tokens before it are the front of something
that is derived, and with it they are not. If it is the end of the input, they are not derived
themselves. -/
structure Token.Offends (token : Token) (before : List Token) : Prop where
  viable : ∃ more e, Derives (.chain .term) (before ++ more) e
  stuck : ∀ more e, ¬ Derives (.chain .term) (before ++ token :: more) e
  unfinished : token.kind = .endOfInput → ∀ e, ¬ Derives (.chain .term) before e

-- The equations of `message` are stated one by one: unfolding it compares long texts.
theorem ParseError.message_unexpected (token : Token) :
    (unexpected token).message =
      if token.kind = .endOfInput then
        "Parse error: Unexpected end of input at offset " ++ Nat.repr token.offset
      else
        "Parse error: Unexpected " ++ token.kind.name ++ " '" ++ token.literal ++ "' at offset " ++
          Nat.repr token.offset := rfl

theorem ParseError.message_unclosed (token : Token) :
    (unclosed token).message =
      "Parse error: Expected ')' after expression. Got " ++ token.kind.name ++ " at offset " ++
        Nat.repr token.offset := rfl

/-- The token that is blamed is named in the message. -/
theorem Token.namedIn_message {blame : Token → ParseError}
    (hBlame : blame = .unexpected ∨ blame = .unclosed) (token : Token) :
    token.NamedIn (blame token).message := by
  rcases hBlame with rfl | rfl
  · rw [ParseError.message_unexpected]
    split
    · rename_i hEnd
      refine ⟨"Unexpected ", by simp, "", by simp, ?_⟩
      rw [hEnd]
      rfl
    · refine ⟨"Unexpected ", by simp, " '" ++ token.literal ++ "'", by simp, ?_⟩
      simp [String.append_assoc]
  · rw [ParseError.message_unclosed]
    refine ⟨"Expected ')' after expression. Got ", by simp, "", by simp, ?_⟩
    simp

/-- Where a reading of a formula gives up, nothing can be derived. -/
theorem Reader.GivesUp.offends {blame : Token → ParseError} {before : List Token} {token : Token}
    (h : (Reader.whole (.chain .term)).GivesUp blame before token) : token.Offends before where
  viable := h.viable
  stuck more e hDerived := by
    -- The parser would read what is derived to its end.
    have hRead : Reads (.whole (.chain .term)) (before ++ token :: more ++ []) (.ok (e, [])) :=
      hDerived.reads (IsFormula.stops_iff.mpr (by simp))
    have hFault := reads_iff.mp (h.decided token more rfl)
    rw [List.append_nil, reads_iff, hFault] at hRead
    cases hRead
  unfinished hEnd e hDerived := by
    have hStops : (Category.chain .term).Stops [token] := by
      show token.kind ∉ _
      rw [hEnd]
      decide
    have hRead := reads_iff.mp (hDerived.reads hStops)
    rw [reads_iff.mp (h.decided token [] rfl)] at hRead
    cases hRead

namespace Expr

/-- **Errors point at the first offending token.** A text of at most a thousand tokens that is
refused is refused for one of its tokens, which the message names. That token offends: what is
before it is the front of something that is derived, and with it is not. It is named because it
stands there, as any other token of its kind would be. So the parser never names the token that
stands in for a missing one, unless the text is empty, and that token is its own. -/
theorem parse_names_offender (text : String) {fault : ParseError}
    (hFew : (pieces text).length ≤ 1000) (hFault : parse text = .error fault) :
    ∃ blame : Token → ParseError, (blame = .unexpected ∨ blame = .unclosed) ∧
      ∃ before token after, tokenize text = before ++ token :: after ∧ fault = blame token ∧
        token.NamedIn fault.message ∧ token.Offends before ∧
        (∀ other rest, other.kind = token.kind →
          parseTokens (before ++ other :: rest) = .error (blame other)) ∧
        (token = Token.current [] → text = "") := by
  rw [parse_of_le hFew, parseTokens_eq_error_iff] at hFault
  have hBlames := hFault.blames (fun _ => not_malformed_of_mem_tokenize) (endsInput_tokenize text)
  generalize hTokens : tokenize text = ts at hBlames
  obtain @⟨blame, after, token, wording, before, givesUp⟩ := hBlames
  refine ⟨blame, wording, before, token, after, rfl, rfl, token.namedIn_message wording,
    givesUp.offends, ?_, ?_⟩
  · intro other rest hKind
    exact parseTokens_eq_error_iff.mpr (givesUp.decided other rest hKind)
  · rintro rfl
    have hMem : Token.current [] ∈ tokenize text := by simp [hTokens]
    have hOffset := congrArg Token.offset (eq_endAt_of_mem_tokenize hMem rfl)
    exact String.utf8ByteSize_eq_zero_iff.mp hOffset.symm

/-- In a group that is not closed, the letter is named that stands in place of the parenthesis,
by the byte at which it starts. -/
theorem parse_names_offender_unclosed :
    let text := "2*(-3+$U1 é"
    let letter : Token := ⟨.illegal, "é", 10⟩
    parse text = .error (.unclosed letter) ∧
      ∃ before after, tokenize text = before ++ letter :: after ∧ letter.Offends before := by
  intro text letter
  have hFault : (pieces text).length ≤ 1000 ∧ parse text = .error (.unclosed letter) := by
    decide +kernel
  obtain ⟨blame, hBlame, before, token, after, hTokens, hNamed, -, hOffends, -, -⟩ :=
    parse_names_offender text hFault.1 hFault.2
  refine ⟨hFault.2, ?_⟩
  rcases hBlame with rfl | rfl
  · cases hNamed
  · cases hNamed
    exact ⟨before, after, hTokens, hOffends⟩

end Expr

end NoteSheet
