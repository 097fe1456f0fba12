import NoteSheet.Proofs.Readings
import NoteSheet.Proofs.Tokenization

/-!
# The grammar of formulas

`Derives` is the grammar of the parser with the tree of each rule: chains of operands that
group to the left, minus signs, and primary expressions. A formula is a term at the front of
some tokens that no operator continues (`IsFormula`).

What is read is derived from the tokens that are not left over (`Reads.covers`), and no
operator continues it (`Reads.ended`). What is derived is read, whatever comes after it that
does not continue it (`Derives.reads`). As a reading has one result, tokens begin with one
formula at most.

Main statement: `Expr.parse_decides_grammar`.
-/

namespace NoteSheet

/-- The tokens and the tree of what the grammar derives. A chain is derived from its end: the
operand after the last operator is joined to the chain before it. -/
inductive Derives : Category → List Token → Expr → Prop
  | operand {level : Level} {ts : List Token} {e : Expr} (operand : Derives level.operand ts e) :
      Derives (.chain level) ts e
  | join {level : Level} {front back : List Token} {token : Token} {operator : Operator}
      {left right : Expr} (chain : Derives (.chain level) front left)
      (joins : (token.kind, operator) ∈ level.operators)
      (operand : Derives level.operand back right) :
      Derives (.chain level) (front ++ token :: back) (.binary operator left right)
  | negate {token : Token} {ts : List Token} {e : Expr} (minus : token.kind = .minus)
      (operand : Derives .unary ts e) : Derives .unary (token :: ts) (.negate e)
  | plain {ts : List Token} {e : Expr} (primary : Derives .primary ts e) : Derives .unary ts e
  | atom {token : Token} {e : Expr} (atom : Atom token e) : Derives .primary [token] e
  | group {opening closing : Token} {ts : List Token} {e : Expr}
      (opens : opening.kind = .leftParen) (closes : closing.kind = .rightParen)
      (inner : Derives (.chain .term) ts e) :
      Derives .primary (opening :: ts ++ [closing]) (.group e)

/-- A formula at the front of some tokens, and the tokens after it, which do not go on with
an operator. -/
structure IsFormula (ts : List Token) (e : Expr) (front rest : List Token) : Prop where
  split : ts = front ++ rest
  derives : Derives (.chain .term) front e
  stops : ∀ token ∈ rest.head?, token.kind ∉ [TokenKind.plus, .minus, .times, .divide]

/-! ## What ends a reading -/

/-- The operators that a reading of a category goes on with. -/
def Category.continues : Category → List TokenKind
  | chain .term => [.plus, .minus, .times, .divide]
  | chain .factor => [.times, .divide]
  | unary => []
  | primary => []

/-- A reading of the category would not go on into these tokens. -/
def Category.Stops (category : Category) (rest : List Token) : Prop :=
  (Token.current rest).kind ∉ category.continues

theorem Category.stops_chain_iff {level : Level} {rest : List Token} :
    (chain level).Stops rest ↔
      (Token.current rest).kind ∉ level.operators.map Prod.fst ∧ level.operand.Stops rest := by
  unfold Stops
  generalize (Token.current rest).kind = kind
  cases level <;> cases kind <;> decide

/-- An operator of a level ends the operand before it. -/
theorem Category.stops_of_joins {level : Level} {token : Token} {operator : Operator}
    (hJoins : (token.kind, operator) ∈ level.operators) (rest : List Token) :
    level.operand.Stops (token :: rest) := by
  show token.kind ∉ level.operand.continues
  generalize token.kind = kind at hJoins
  revert hJoins
  cases level <;> cases kind <;> cases operator <;> decide

/-! ## Readings are derived -/

/-- What a reader reads, by its tokens. -/
def Reader.Covers : Reader → List Token → Expr → Prop
  | whole category, ts, e => Derives category ts e
  | tail level left, ts, e =>
      ∀ front, Derives (.chain level) front left → Derives (.chain level) (front ++ ts) e

namespace Reads

variable {reader : Reader} {ts rest : List Token} {e : Expr}

/-- **Soundness**: what is read is derived from the tokens that are not left over. -/
theorem covers (h : Reads reader ts (.ok (e, rest))) :
    ∃ front, ts = front ++ rest ∧ reader.Covers front e := by
  generalize hResult : (Except.ok (e, rest) : Reading) = result at h
  induction h generalizing e rest with
  | chain _ _ ihFirst ihMore =>
      obtain ⟨front, rfl, hFront⟩ := ihFirst rfl
      obtain ⟨back, rfl, hBack⟩ := ihMore hResult
      exact ⟨front ++ back, by simp, hBack front (.operand hFront)⟩
  | stop _ =>
      cases hResult
      exact ⟨[], rfl, fun front hFront => by simpa using hFront⟩
  | @more level left right token _ _ operator _ joins _ _ ihOperand ihMore =>
      obtain ⟨front, rfl, hFront⟩ := ihOperand rfl
      obtain ⟨back, rfl, hBack⟩ := ihMore hResult
      refine ⟨token :: front ++ back, by simp, fun before hBefore => ?_⟩
      have hJoined : Derives (.chain level) (before ++ token :: front)
          (.binary operator left right) := .join hBefore joins hFront
      simpa using hBack _ hJoined
  | @negate token _ _ _ minus _ ihOperand =>
      cases hResult
      obtain ⟨front, rfl, hFront⟩ := ihOperand rfl
      exact ⟨token :: front, rfl, .negate minus hFront⟩
  | plain _ _ ih =>
      obtain ⟨front, rfl, hFront⟩ := ih hResult
      exact ⟨front, rfl, .plain hFront⟩
  | @atom token _ _ atom =>
      cases hResult
      exact ⟨[token], rfl, .atom atom⟩
  | @group opening closing _ _ _ opens closes _ ih =>
      cases hResult
      obtain ⟨front, rfl, hFront⟩ := ih rfl
      exact ⟨opening :: front ++ [closing], by simp, .group opens closes hFront⟩
  | chainFault | moreFault | negateFault | malformed | groupFault | unclosed | unexpected =>
      cases hResult

/-- Where a reader has come to its end. -/
def Ended : Reader → List Token → List Token → Prop
  | .whole category, _, rest => category.Stops rest
  | .tail level _, ts, rest => level.operand.Stops ts → (Category.chain level).Stops rest

/-- What is left over does not go on with an operator that the reader would have read. -/
theorem ended (h : Reads reader ts (.ok (e, rest))) : Ended reader ts rest := by
  generalize hResult : (Except.ok (e, rest) : Reading) = result at h
  induction h generalizing e rest with
  | chain _ _ ihFirst ihMore => exact ihMore hResult (ihFirst rfl)
  | stop ends =>
      cases hResult
      exact fun hOperand => Category.stops_chain_iff.mpr ⟨ends, hOperand⟩
  | more _ _ _ ihOperand ihMore => exact fun _ => ihMore hResult (ihOperand rfl)
  | plain _ _ _ => exact List.not_mem_nil
  | negate _ _ _ => exact List.not_mem_nil
  | atom _ => exact List.not_mem_nil
  | group _ _ _ _ => exact List.not_mem_nil
  | chainFault | moreFault | negateFault | malformed | groupFault | unclosed | unexpected =>
      cases hResult

end Reads

/-! ## What is derived is read -/

/-- What is derived is read in front of anything that does not continue it, a chain by going
on to the end of it. -/
def Category.Completes : Category → List Token → Expr → Prop
  | chain level, ts, e =>
      ∀ rest result, level.operand.Stops rest → Reads (.tail level e) rest result →
        Reads (.whole (.chain level)) (ts ++ rest) result
  | unary, ts, e => ∀ rest, Reads (.whole .unary) (ts ++ rest) (.ok (e, rest))
  | primary, ts, e => ∀ rest, Reads (.whole .primary) (ts ++ rest) (.ok (e, rest))

theorem Category.Completes.reads {category : Category} {ts rest : List Token} {e : Expr}
    (h : category.Completes ts e) (hStops : category.Stops rest) :
    Reads (.whole category) (ts ++ rest) (.ok (e, rest)) := by
  match category with
  | chain level =>
      obtain ⟨hEnds, hOperand⟩ := Category.stops_chain_iff.mp hStops
      exact h rest _ hOperand (.stop hEnds)
  | unary => exact h rest
  | primary => exact h rest

namespace Derives

variable {category : Category} {ts rest : List Token} {e : Expr}

/-- A primary expression does not begin with a minus sign. -/
theorem primary_head (h : Derives .primary ts e) :
    ∃ token more, ts = token :: more ∧ token.kind ≠ .minus := by
  cases h with
  | @atom token _ atom =>
      refine ⟨token, [], rfl, ?_⟩
      cases atom <;> simp [*]
  | group opens _ _ => exact ⟨_, _, rfl, by simp [opens]⟩

theorem completes (h : Derives category ts e) : category.Completes ts e := by
  induction h with
  | operand _ ih => exact fun rest result hStops hTail => .chain (ih.reads hStops) hTail
  | join _ joins _ ihChain ihOperand =>
      intro rest result hStops hTail
      rw [List.append_assoc]
      exact ihChain _ result (Category.stops_of_joins joins _)
        (.more joins (ihOperand.reads hStops) hTail)
  | negate minus _ ih => exact fun rest => .negate minus (ih rest)
  | plain primary ih =>
      intro rest
      obtain ⟨token, more, rfl, hMinus⟩ := primary.primary_head
      exact .plain hMinus (ih rest)
  | atom atom => exact fun rest => .atom atom
  | @group opening closing ts e opens closes inner ih =>
      intro rest
      have hStops : (Category.chain .term).Stops (closing :: rest) := by
        show closing.kind ∉ _
        rw [closes]
        decide
      rw [List.cons_append, List.cons_append, List.append_assoc]
      exact .group opens closes (ih.reads hStops)

/-- **Completeness**: what is derived is read in front of anything that does not go on with
an operator. -/
theorem reads (h : Derives category ts e) (hStops : category.Stops rest) :
    Reads (.whole category) (ts ++ rest) (.ok (e, rest)) :=
  h.completes.reads hStops

/-- The end of the input is no part of what is derived. -/
theorem kind_ne_endOfInput (h : Derives category ts e) :
    ∀ token ∈ ts, token.kind ≠ .endOfInput := by
  induction h with
  | operand _ ih => exact ih
  | @join level _ _ token operator _ _ _ joins _ ihChain ihOperand =>
      have hJoins : token.kind ≠ .endOfInput := by
        rintro hEnd
        rw [hEnd] at joins
        revert joins
        cases level <;> cases operator <;> decide
      simp only [List.mem_append, List.mem_cons]
      rintro other (hMem | rfl | hMem)
      · exact ihChain other hMem
      · exact hJoins
      · exact ihOperand other hMem
  | negate minus _ ih => simpa [minus] using ih
  | plain _ ih => exact ih
  | atom atom => cases atom <;> simp [*]
  | group opens closes _ ih =>
      simp only [List.mem_append, List.mem_cons, List.not_mem_nil, or_false]
      rintro other ((rfl | hMem) | rfl)
      · simp [opens]
      · exact ih other hMem
      · simp [closes]

end Derives

/-! ## Formulas -/

/-- A last token that is not in the front is the last one behind it. -/
theorem exists_concat_of_append_eq {ts front rest : List Token} {last : Token}
    (h : ts ++ [last] = front ++ rest) (hMem : last ∉ front) :
    ∃ behind, rest = behind ++ [last] ∧ ts = front ++ behind := by
  rcases List.append_eq_append_iff.mp h with ⟨more, hFront, hLast⟩ | ⟨behind, hTokens, hRest⟩
  · cases more with
    | nil => exact ⟨[], hLast.symm, by simp [hFront]⟩
    | cons token more =>
        obtain ⟨rfl, -⟩ := List.cons.inj hLast
        exact absurd (by simp [hFront]) hMem
  · exact ⟨behind, hRest, hTokens⟩

namespace IsFormula

variable {ts front rest : List Token} {e : Expr}

theorem stops_iff :
    (Category.chain .term).Stops rest ↔
      ∀ token ∈ rest.head?, token.kind ∉ [TokenKind.plus, .minus, .times, .divide] := by
  cases rest with
  | nil => simp [Category.Stops, Category.continues, Token.current]
  | cons token rest => simp [Category.Stops, Category.continues, Token.current]

theorem reads_iff_exists :
    Reads (.whole (.chain .term)) ts (.ok (e, rest)) ↔ ∃ front, IsFormula ts e front rest := by
  constructor
  · intro h
    obtain ⟨front, hSplit, hFront⟩ := h.covers
    exact ⟨front, hSplit, hFront, stops_iff.mp h.ended⟩
  · rintro ⟨front, rfl, hFront, hStops⟩
    exact hFront.reads (stops_iff.mpr hStops)

/-- Tokens begin with one formula at most. -/
theorem unique {front' rest' : List Token} {e' : Expr} (h : IsFormula ts e front rest)
    (h' : IsFormula ts e' front' rest') : e = e' ∧ front = front' ∧ rest = rest' := by
  have hRead := reads_iff.mp (reads_iff_exists.mpr ⟨front, h⟩)
  have hRead' := reads_iff.mp (reads_iff_exists.mpr ⟨front', h'⟩)
  obtain ⟨rfl, rfl⟩ := Prod.mk.inj (Except.ok.inj (hRead.symm.trans hRead'))
  exact ⟨rfl, List.append_cancel_right (h.split.symm.trans h'.split), rfl⟩

/-- The end of the input after some tokens makes no difference. -/
theorem exists_concat_iff (last : Token) (hLast : last.kind = .endOfInput) :
    (∃ front rest, IsFormula (ts ++ [last]) e front rest) ↔
      ∃ front rest, IsFormula ts e front rest := by
  constructor
  · rintro ⟨front, rest, hSplit, hFront, hStops⟩
    -- The end of the input is not derived.
    obtain ⟨rest, rfl, rfl⟩ := exists_concat_of_append_eq hSplit fun hMem =>
      hFront.kind_ne_endOfInput last hMem hLast
    refine ⟨front, rest, rfl, hFront, ?_⟩
    cases rest with
    | nil => simp
    | cons token rest => exact hStops
  · rintro ⟨front, rest, rfl, hFront, hStops⟩
    refine ⟨front, rest ++ [last], by simp, hFront, ?_⟩
    cases rest with
    | nil => simp [hLast]
    | cons token rest => exact hStops

end IsFormula

/-! ## Faults -/

/-- The literal of a reference is a `$` and a word. -/
theorem IsPiece.literal_of_reference {token : Token} {after : List Char}
    (h : IsPiece token.kind token.span.toList after)
    (hKind : token.kind = .absoluteRef ∨ token.kind = .relativeRef) :
    ∃ word, token.literal.toList = '$' :: word ∧ ReferenceKind word token.kind := by
  have hReference : token.kind ∈ [TokenKind.absoluteRef, .relativeRef, .variableRef] := by
    simp [← or_assoc, hKind]
  have hVariable : token.kind ≠ .variableRef := by
    rcases hKind with hKind | hKind <;> simp [hKind]
  obtain ⟨word, hSpan, hWord⟩ := h.of_reference hReference
  rw [Token.span, if_neg hVariable] at hSpan
  exact ⟨word, hSpan, hWord⟩

/-- The references of a text name something. -/
theorem IsPiece.not_malformed {token : Token} {after : List Char}
    (h : IsPiece token.kind token.span.toList after) (fault : Literal.Fault) :
    ¬ token.Malformed fault := by
  rintro (⟨hKind, hFault⟩ | ⟨hKind, hFault⟩)
  · obtain ⟨word, hLiteral, hWord⟩ := h.literal_of_reference (Or.inl hKind)
    rw [hKind] at hWord
    cases hWord with
    | absolute wide hex =>
        let id : Uid := ⟨word, wide, List.all_eq_true.mpr hex⟩
        have hNames : Literal.absolute token.literal = .ok id :=
          Literal.absolute_eq_ok_iff.mpr (Literal.body_of_dollar hLiteral)
        rw [hNames] at hFault
        cases hFault
  · obtain ⟨word, hLiteral, hWord⟩ := h.literal_of_reference (Or.inr hKind)
    rw [hKind] at hWord
    cases hWord with
    | relative wide steps =>
        obtain ⟨letter, digits, rfl, hLetter, hNonempty, hDigits⟩ := steps
        obtain ⟨direction, hDirection⟩ :=
          Option.isSome_iff_exists.mp (Direction.ofLetter?_isSome_iff.mpr hLetter)
        have hNames : Literal.relative token.literal = .ok (direction, _) :=
          Literal.relative_eq_ok_iff.mpr ⟨letter, digits, Literal.body_of_dollar hLiteral,
            hDirection, hNonempty, List.all_eq_true.mpr hDigits, rfl⟩
        rw [hNames] at hFault
        cases hFault

theorem not_malformed_of_mem_tokenize {text : String} {token : Token}
    (h : token ∈ tokenize text) (fault : Literal.Fault) : ¬ token.Malformed fault := by
  rw [tokenize_eq, List.mem_append, List.mem_singleton] at h
  rcases h with hMem | rfl
  · obtain ⟨before, after, -, -, hCut⟩ := (cuts_pieces text).placed hMem
    exact hCut.not_malformed fault
  · rintro (⟨hKind, -⟩ | ⟨hKind, -⟩) <;> cases hKind

/-- **Faults**: where every reference is one, what is at fault is a token. -/
theorem Reads.fault {reader : Reader} {ts : List Token} {fault : ParseError}
    (h : Reads reader ts (.error fault))
    (hFormed : ∀ token ∈ ts, ∀ reason, ¬ token.Malformed reason) :
    ∃ token, fault = .unexpected token ∨ fault = .unclosed token := by
  generalize hResult : (Except.error fault : Reading) = result at h
  induction h with
  | chain first _ _ ihMore =>
      obtain ⟨front, rfl, -⟩ := first.covers
      exact ihMore (fun token hMem => hFormed token (List.mem_append_right front hMem)) hResult
  | chainFault _ ih => exact ih hFormed hResult
  | more _ operand _ _ ihMore =>
      obtain ⟨front, rfl, -⟩ := operand.covers
      refine ihMore (fun token hMem => hFormed token ?_) hResult
      exact List.mem_cons_of_mem _ (List.mem_append_right front hMem)
  | moreFault _ _ ih => exact ih (fun token hMem => hFormed token (.tail _ hMem)) hResult
  | negateFault _ _ ih => exact ih (fun token hMem => hFormed token (.tail _ hMem)) hResult
  | plain _ _ ih => exact ih hFormed hResult
  | malformed malformed => exact absurd malformed (hFormed _ List.mem_cons_self _)
  | groupFault _ _ ih => exact ih (fun token hMem => hFormed token (.tail _ hMem)) hResult
  | unclosed _ _ _ _ =>
      cases hResult
      exact ⟨_, .inr rfl⟩
  | unexpected _ =>
      cases hResult
      exact ⟨_, .inl rfl⟩
  | stop | negate | atom | group => cases hResult

/-! ## Formulas of a text -/

namespace Expr

variable {text : String}

theorem parse_of_lt (h : maxTokens < (pieces text).length) : parse text = .error .tooLong := by
  have hUpTo : (Lexer.ofText text).upTo? maxTokens = _ :=
    Lexer.upTo?_of_cuts (cuts_pieces text) maxTokens
  rw [if_neg (Nat.not_le.mpr h)] at hUpTo
  rw [parse, hUpTo]

/-- A text that is parsed has few enough tokens. -/
theorem length_pieces_le_of_parse {e : Expr} (h : parse text = .ok e) :
    (pieces text).length ≤ maxTokens := by
  by_contra hMany
  rw [parse_of_lt (Nat.not_le.mp hMany)] at h
  cases h

/-- To stop reading at the first token too many comes to the same as reading the whole text. -/
theorem parse_of_le (h : (pieces text).length ≤ maxTokens) :
    parse text = parseTokens (tokenize text) := by
  have hUpTo : (Lexer.ofText text).upTo? maxTokens = _ :=
    Lexer.upTo?_of_cuts (cuts_pieces text) maxTokens
  rw [if_pos h, byteLength_toList, Nat.zero_add, ← tokenize_eq] at hUpTo
  rw [parse, hUpTo]

theorem parse_eq_ok_iff (h : (pieces text).length ≤ maxTokens) {e : Expr} :
    parse text = .ok e ↔ ∃ front rest, IsFormula (pieces text) e front rest := by
  rw [parse_of_le h, parseTokens_eq_ok_iff,
    ← IsFormula.exists_concat_iff (.endAt text.utf8ByteSize) rfl, ← tokenize_eq, exists_comm]
  simp only [IsFormula.reads_iff_exists]

/-- **The parser decides the grammar** and builds its tree. A text of more than a thousand
tokens is refused. Any other text is read as the formula that its tokens begin with, which is
the only one, and where they begin with none a token is at fault. -/
theorem parse_decides_grammar (text : String) :
    (1000 < (pieces text).length → parse text = .error .tooLong) ∧
      ((pieces text).length ≤ 1000 →
        (∀ e, parse text = .ok e ↔ ∃ front rest, IsFormula (pieces text) e front rest) ∧
        ((¬ ∃ e front rest, IsFormula (pieces text) e front rest) →
          ∃ token, parse text = .error (.unexpected token) ∨
            parse text = .error (.unclosed token))) ∧
      ∀ e e' front front' rest rest', IsFormula (pieces text) e front rest →
        IsFormula (pieces text) e' front' rest' → e = e' ∧ front = front' ∧ rest = rest' := by
  refine ⟨parse_of_lt, fun hFew => ⟨fun e => parse_eq_ok_iff hFew, fun hNone => ?_⟩,
    fun _ _ _ _ _ _ h h' => h.unique h'⟩
  match hParse : parse text with
  | .ok e => exact absurd ⟨e, (parse_eq_ok_iff hFew).mp hParse⟩ hNone
  | .error fault =>
      rw [parse_of_le hFew, parseTokens_eq_error_iff] at hParse
      obtain ⟨token, rfl | rfl⟩ := hParse.fault fun _ => not_malformed_of_mem_tokenize
      · exact ⟨token, .inl rfl⟩
      · exact ⟨token, .inr rfl⟩

end Expr

end NoteSheet
