import NoteSheet.Formula.Parser

/-!
# What the readers of formulas read

The readers of terms and of factors are one reader at two levels: an operand, and then what
continues it. `Reads` lists the ways in which a reading can go, the faults among them, with
no bound on what is left over and no order in which the readers call each other. These are
the ways of the parser (`reads_iff`), so that what holds of every reading is shown by going
through them one by one.

Main statements: `reads_iff`, `Expr.parseTokens_eq_ok_iff`, `Expr.parseTokens_eq_error_iff`.
-/

namespace NoteSheet

/-- The levels of the two chains of the grammar. -/
inductive Level where
  | term
  | factor
deriving DecidableEq, Repr

/-- What can be read off the front of some tokens. -/
inductive Category where
  /-- Operands with operators of one level between them. -/
  | chain (level : Level)
  | unary
  | primary
deriving DecidableEq, Repr

/-- The operators of a level and the tokens they are written with. -/
def Level.operators : Level → List (TokenKind × Operator)
  | term => [(.plus, .add), (.minus, .subtract)]
  | factor => [(.times, .multiply), (.divide, .divide)]

/-- What stands on either side of the operators of a level. -/
def Level.operand : Level → Category
  | term => .chain .factor
  | factor => .unary

/-- A reader of the parser. -/
inductive Reader where
  | whole (category : Category)
  /-- Reads what continues a chain whose front is `left`. -/
  | tail (level : Level) (left : Expr)

/-- An expression with the tokens left over, or the reason why there is none. -/
abbrev Reading := Except ParseError (Expr × List Token)

/-- A result of the parser, without the bound on what is left over. -/
def Reading.of {bound : Nat} (result : Except ParseError (Parsed bound)) : Reading :=
  result.map fun parsed => (parsed.expr, parsed.rest)

/-- What a reader makes of some tokens. -/
def Reader.read : Reader → List Token → Reading
  | whole (.chain .term), ts => .of (Expr.parseTerm ts)
  | whole (.chain .factor), ts => .of (Expr.parseFactor ts)
  | whole .unary, ts => .of (Expr.parseUnary ts)
  | whole .primary, [] => .error (.unexpected (Token.current []))
  | whole .primary, token :: rest => .of (Expr.parsePrimary token rest)
  | tail .term left, ts => .of (Expr.parseTermTail left ts)
  | tail .factor left, ts => .of (Expr.parseFactorTail left ts)

/-- A token that is an expression by itself. -/
inductive Atom : Token → Expr → Prop
  | number {token : Token} (kind : token.kind = .number) :
      Atom token (.number (Literal.number token.literal))
  | absolute {token : Token} {id : Uid} (kind : token.kind = .absoluteRef)
      (names : Literal.absolute token.literal = .ok id) : Atom token (.absolute id)
  | relative {token : Token} {direction : Direction} {steps : Nat}
      (kind : token.kind = .relativeRef)
      (names : Literal.relative token.literal = .ok (direction, steps)) :
      Atom token (.relative direction steps)

/-- A reference token whose literal names nothing, for the given reason. -/
def Token.Malformed (token : Token) (fault : Literal.Fault) : Prop :=
  token.kind = .absoluteRef ∧ Literal.absolute token.literal = .error fault ∨
    token.kind = .relativeRef ∧ Literal.relative token.literal = .error fault

/-- The tokens that a primary expression can begin with. -/
def primaryKinds : List TokenKind := [.number, .absoluteRef, .relativeRef, .leftParen]

/-- The ways in which a reading can go. -/
inductive Reads : Reader → List Token → Reading → Prop
  | chain {level : Level} {ts mid : List Token} {e : Expr} {result : Reading}
      (first : Reads (.whole level.operand) ts (.ok (e, mid)))
      (more : Reads (.tail level e) mid result) : Reads (.whole (.chain level)) ts result
  | chainFault {level : Level} {ts : List Token} {fault : ParseError}
      (first : Reads (.whole level.operand) ts (.error fault)) :
      Reads (.whole (.chain level)) ts (.error fault)
  | stop {level : Level} {left : Expr} {ts : List Token}
      (ends : (Token.current ts).kind ∉ level.operators.map Prod.fst) :
      Reads (.tail level left) ts (.ok (left, ts))
  | more {level : Level} {left right : Expr} {token : Token} {rest mid : List Token}
      {operator : Operator} {result : Reading}
      (joins : (token.kind, operator) ∈ level.operators)
      (operand : Reads (.whole level.operand) rest (.ok (right, mid)))
      (more : Reads (.tail level (.binary operator left right)) mid result) :
      Reads (.tail level left) (token :: rest) result
  | moreFault {level : Level} {left : Expr} {token : Token} {rest : List Token}
      {operator : Operator} {fault : ParseError} (joins : (token.kind, operator) ∈ level.operators)
      (operand : Reads (.whole level.operand) rest (.error fault)) :
      Reads (.tail level left) (token :: rest) (.error fault)
  | negate {token : Token} {rest after : List Token} {e : Expr} (minus : token.kind = .minus)
      (operand : Reads (.whole .unary) rest (.ok (e, after))) :
      Reads (.whole .unary) (token :: rest) (.ok (.negate e, after))
  | negateFault {token : Token} {rest : List Token} {fault : ParseError}
      (minus : token.kind = .minus) (operand : Reads (.whole .unary) rest (.error fault)) :
      Reads (.whole .unary) (token :: rest) (.error fault)
  | plain {ts : List Token} {result : Reading} (minus : (Token.current ts).kind ≠ .minus)
      (primary : Reads (.whole .primary) ts result) : Reads (.whole .unary) ts result
  | atom {token : Token} {rest : List Token} {e : Expr} (atom : Atom token e) :
      Reads (.whole .primary) (token :: rest) (.ok (e, rest))
  | malformed {token : Token} {rest : List Token} {fault : Literal.Fault}
      (malformed : token.Malformed fault) :
      Reads (.whole .primary) (token :: rest) (.error (.invalidReference fault))
  | group {opening closing : Token} {rest after : List Token} {e : Expr}
      (opens : opening.kind = .leftParen) (closes : closing.kind = .rightParen)
      (inner : Reads (.whole (.chain .term)) rest (.ok (e, closing :: after))) :
      Reads (.whole .primary) (opening :: rest) (.ok (.group e, after))
  | groupFault {opening : Token} {rest : List Token} {fault : ParseError}
      (opens : opening.kind = .leftParen)
      (inner : Reads (.whole (.chain .term)) rest (.error fault)) :
      Reads (.whole .primary) (opening :: rest) (.error fault)
  | unclosed {opening : Token} {rest after : List Token} {e : Expr}
      (opens : opening.kind = .leftParen) (closes : (Token.current after).kind ≠ .rightParen)
      (inner : Reads (.whole (.chain .term)) rest (.ok (e, after))) :
      Reads (.whole .primary) (opening :: rest) (.error (.unclosed (Token.current after)))
  | unexpected {ts : List Token} (kind : (Token.current ts).kind ∉ primaryKinds) :
      Reads (.whole .primary) ts (.error (.unexpected (Token.current ts)))

/-! ## The readers in terms of each other -/

/-- The operator with which a token continues a chain. -/
def Level.operator? : Level → TokenKind → Option Operator
  | term, kind => kind.additive?
  | factor, kind => kind.multiplicative?

namespace Level

variable {level : Level} {kind : TokenKind}

theorem operator?_eq_some_iff {operator : Operator} :
    level.operator? kind = some operator ↔ (kind, operator) ∈ level.operators := by
  cases level <;> cases kind <;> cases operator <;> decide

theorem operator?_eq_none_iff :
    level.operator? kind = none ↔ kind ∉ level.operators.map Prod.fst := by
  cases level <;> cases kind <;> decide

end Level

namespace Reader

theorem read_chain (level : Level) (ts : List Token) :
    (whole (.chain level)).read ts =
      (whole level.operand).read ts >>= fun first => (tail level first.1).read first.2 := by
  cases level with
  | term =>
      show Reading.of (Expr.parseTerm ts) = Reading.of (Expr.parseFactor ts) >>= _
      rw [Expr.parseTerm]
      cases Expr.parseFactor ts with
      | error fault => rfl
      | ok first =>
          show _ = Reading.of (Expr.parseTermTail first.expr first.rest)
          dsimp only
          cases Expr.parseTermTail first.expr first.rest <;> rfl
  | factor =>
      show Reading.of (Expr.parseFactor ts) = Reading.of (Expr.parseUnary ts) >>= _
      rw [Expr.parseFactor]
      cases Expr.parseUnary ts with
      | error fault => rfl
      | ok first =>
          show _ = Reading.of (Expr.parseFactorTail first.expr first.rest)
          dsimp only
          cases Expr.parseFactorTail first.expr first.rest <;> rfl

theorem read_tail (level : Level) (left : Expr) (ts : List Token) :
    (tail level left).read ts =
      match level.operator? (Token.current ts).kind with
      | none => .ok (left, ts)
      | some operator =>
          (whole level.operand).read ts.tail >>= fun right =>
            (tail level (.binary operator left right.1)).read right.2 := by
  cases level with
  | term =>
      show Reading.of (Expr.parseTermTail left ts) = _
      unfold Expr.parseTermTail
      cases ts with
      | nil => rfl
      | cons token rest =>
          show _ = match token.kind.additive? with
            | none => _
            | some operator => Reading.of (Expr.parseFactor rest) >>= _
          dsimp only
          cases token.kind.additive? with
          | none => rfl
          | some operator =>
              cases Expr.parseFactor rest with
              | error fault => rfl
              | ok right =>
                  show _ = Reading.of
                    (Expr.parseTermTail (.binary operator left right.expr) right.rest)
                  dsimp only
                  cases Expr.parseTermTail (.binary operator left right.expr) right.rest <;> rfl
  | factor =>
      show Reading.of (Expr.parseFactorTail left ts) = _
      unfold Expr.parseFactorTail
      cases ts with
      | nil => rfl
      | cons token rest =>
          show _ = match token.kind.multiplicative? with
            | none => _
            | some operator => Reading.of (Expr.parseUnary rest) >>= _
          dsimp only
          cases token.kind.multiplicative? with
          | none => rfl
          | some operator =>
              cases Expr.parseUnary rest with
              | error fault => rfl
              | ok right =>
                  show _ = Reading.of
                    (Expr.parseFactorTail (.binary operator left right.expr) right.rest)
                  dsimp only
                  cases Expr.parseFactorTail (.binary operator left right.expr) right.rest <;> rfl

theorem read_stop {level : Level} {ts : List Token} (left : Expr)
    (hEnds : (Token.current ts).kind ∉ level.operators.map Prod.fst) :
    (tail level left).read ts = .ok (left, ts) := by
  rw [read_tail, Level.operator?_eq_none_iff.mpr hEnds]

theorem read_more {level : Level} {token : Token} {operator : Operator} (left : Expr)
    (rest : List Token) (hJoins : (token.kind, operator) ∈ level.operators) :
    (tail level left).read (token :: rest) =
      (whole level.operand).read rest >>= fun right =>
        (tail level (.binary operator left right.1)).read right.2 := by
  have hSome : level.operator? (Token.current (token :: rest)).kind = some operator :=
    Level.operator?_eq_some_iff.mpr hJoins
  rw [read_tail, hSome]
  rfl

theorem read_negate {token : Token} (rest : List Token) (hMinus : token.kind = .minus) :
    (whole .unary).read (token :: rest) =
      (whole .unary).read rest >>= fun operand => .ok (.negate operand.1, operand.2) := by
  show Reading.of (Expr.parseUnary (token :: rest)) = Reading.of (Expr.parseUnary rest) >>= _
  rw [Expr.parseUnary, if_pos hMinus]
  cases Expr.parseUnary rest <;> rfl

theorem read_plain {ts : List Token} (hMinus : (Token.current ts).kind ≠ .minus) :
    (whole .unary).read ts = (whole .primary).read ts := by
  cases ts with
  | nil =>
      show Reading.of (Expr.parseUnary []) = _
      rw [Expr.parseUnary]
      rfl
  | cons token rest =>
      have hMinus : token.kind ≠ .minus := hMinus
      show Reading.of (Expr.parseUnary (token :: rest)) = Reading.of (Expr.parsePrimary token rest)
      rw [Expr.parseUnary, if_neg hMinus]

theorem read_atom {token : Token} {e : Expr} (rest : List Token) (hAtom : Atom token e) :
    (whole .primary).read (token :: rest) = .ok (e, rest) := by
  show Reading.of (Expr.parsePrimary token rest) = _
  rw [Expr.parsePrimary]
  cases hAtom with
  | number kind =>
      rw [kind]
      rfl
  | absolute kind names =>
      rw [kind]
      dsimp only
      rw [names]
      rfl
  | relative kind names =>
      rw [kind]
      dsimp only
      rw [names]
      rfl

theorem read_malformed {token : Token} {fault : Literal.Fault} (rest : List Token)
    (hMalformed : token.Malformed fault) :
    (whole .primary).read (token :: rest) = .error (.invalidReference fault) := by
  show Reading.of (Expr.parsePrimary token rest) = _
  rw [Expr.parsePrimary]
  rcases hMalformed with ⟨hKind, hFault⟩ | ⟨hKind, hFault⟩
  all_goals
    rw [hKind]
    dsimp only
    rw [hFault]
    rfl

theorem read_group {opening : Token} (rest : List Token) (hOpens : opening.kind = .leftParen) :
    (whole .primary).read (opening :: rest) =
      (whole (.chain .term)).read rest >>= fun inner =>
        if (Token.current inner.2).kind = .rightParen then
          Except.ok (Expr.group inner.1, inner.2.tail)
        else Except.error (ParseError.unclosed (Token.current inner.2)) := by
  show Reading.of (Expr.parsePrimary opening rest) = Reading.of (Expr.parseTerm rest) >>= _
  rw [Expr.parsePrimary, hOpens]
  cases Expr.parseTerm rest with
  | error fault => rfl
  | ok inner =>
      obtain ⟨e, after, hShorter⟩ := inner
      cases after with
      | nil => rfl
      | cons closing after =>
          show Reading.of (if closing.kind = .rightParen then _ else _) =
            if closing.kind = .rightParen then _ else _
          split <;> rfl

theorem read_unexpected {ts : List Token} (hKind : (Token.current ts).kind ∉ primaryKinds) :
    (whole .primary).read ts = .error (.unexpected (Token.current ts)) := by
  cases ts with
  | nil => rfl
  | cons token rest =>
      have hKind : token.kind ∉ primaryKinds := hKind
      show Reading.of (Expr.parsePrimary token rest) = .error (.unexpected token)
      rw [Expr.parsePrimary]
      generalize token.kind = kind at hKind
      cases kind <;> first | rfl | exact absurd hKind (by decide)

/-! ## Every reading -/

theorem read_lt {category : Category} {ts rest : List Token} {e : Expr}
    (h : (whole category).read ts = .ok (e, rest)) : rest.length < ts.length := by
  have hOf {result : Except ParseError (Parsed ts.length)} (h : Reading.of result = .ok (e, rest)) :
      rest.length < ts.length := by
    cases result with
    | error fault => cases h
    | ok parsed =>
        cases h
        exact parsed.rest_lt
  match category, ts with
  | .chain .term, ts => exact hOf h
  | .chain .factor, ts => exact hOf h
  | .unary, ts => exact hOf h
  | .primary, [] => cases h
  | .primary, token :: rest => exact hOf h

end Reader

/-- How many readers are called one inside the other before a token is taken. -/
def Category.rank : Category → Nat
  | chain .term => 3
  | chain .factor => 2
  | unary => 1
  | primary => 0

def Reader.rank : Reader → Nat
  | whole category => category.rank
  | tail _ _ => 0

theorem Level.rank_operand_lt (level : Level) :
    level.operand.rank < (Category.chain level).rank := by
  cases level <;> decide

/-- A chain ends, or goes on with an operator of its level. -/
theorem Level.ends_or_joins (level : Level) (ts : List Token) :
    (Token.current ts).kind ∉ level.operators.map Prod.fst ∨
      ∃ token rest operator, ts = token :: rest ∧ (token.kind, operator) ∈ level.operators := by
  match ts with
  | [] => exact Or.inl (by cases level <;> decide)
  | token :: rest =>
      match hOperator : level.operator? token.kind with
      | none => exact Or.inl (operator?_eq_none_iff.mp hOperator)
      | some operator =>
          exact Or.inr ⟨token, rest, operator, rfl, operator?_eq_some_iff.mp hOperator⟩

/-- What the front of some tokens is to the reader of primary expressions. -/
theorem Token.primary_cases (ts : List Token) :
    (Token.current ts).kind ∉ primaryKinds ∨ ∃ token rest, ts = token :: rest ∧
      (token.kind = .leftParen ∨ (∃ e, Atom token e) ∨ ∃ fault, token.Malformed fault) := by
  match ts with
  | [] => exact Or.inl (by decide)
  | token :: rest =>
      by_cases hKind : token.kind ∈ primaryKinds
      · refine Or.inr ⟨token, rest, rfl, ?_⟩
        simp only [primaryKinds, List.mem_cons, List.not_mem_nil, or_false] at hKind
        rcases hKind with hKind | hKind | hKind | hKind
        · exact Or.inr (Or.inl ⟨_, .number hKind⟩)
        · cases hNames : Literal.absolute token.literal with
          | error fault => exact Or.inr (Or.inr ⟨fault, Or.inl ⟨hKind, hNames⟩⟩)
          | ok id => exact Or.inr (Or.inl ⟨_, .absolute hKind hNames⟩)
        · cases hNames : Literal.relative token.literal with
          | error fault => exact Or.inr (Or.inr ⟨fault, Or.inr ⟨hKind, hNames⟩⟩)
          | ok names => exact Or.inr (Or.inl ⟨_, .relative hKind hNames⟩)
        · exact Or.inl hKind
      · exact Or.inl hKind

namespace Reads

variable {level : Level} {token : Token} {ts : List Token} {result : Reading}

theorem chain_bind (hFirst : Reads (.whole level.operand) ts result)
    (hMore : ∀ e mid, result = .ok (e, mid) →
      Reads (.tail level e) mid ((Reader.tail level e).read mid)) :
    Reads (.whole (.chain level)) ts
      (result >>= fun first => (Reader.tail level first.1).read first.2) := by
  match result with
  | .error fault => exact .chainFault hFirst
  | .ok (e, mid) => exact .chain hFirst (hMore e mid rfl)

theorem more_bind {operator : Operator} {left : Expr}
    (hJoins : (token.kind, operator) ∈ level.operators)
    (hOperand : Reads (.whole level.operand) ts result)
    (hMore : ∀ right mid, result = .ok (right, mid) →
      Reads (.tail level (.binary operator left right)) mid
        ((Reader.tail level (.binary operator left right)).read mid)) :
    Reads (.tail level left) (token :: ts) (result >>= fun right =>
      (Reader.tail level (.binary operator left right.1)).read right.2) := by
  match result with
  | .error fault => exact .moreFault hJoins hOperand
  | .ok (right, mid) => exact .more hJoins hOperand (hMore right mid rfl)

theorem negate_bind (hMinus : token.kind = .minus) (hOperand : Reads (.whole .unary) ts result) :
    Reads (.whole .unary) (token :: ts)
      (result >>= fun operand => .ok (.negate operand.1, operand.2)) := by
  match result with
  | .error fault => exact .negateFault hMinus hOperand
  | .ok (e, after) => exact .negate hMinus hOperand

theorem group_bind (hOpens : token.kind = .leftParen)
    (hInner : Reads (.whole (.chain .term)) ts result) :
    Reads (.whole .primary) (token :: ts) (result >>= fun inner =>
      if (Token.current inner.2).kind = .rightParen then
        Except.ok (Expr.group inner.1, inner.2.tail)
      else Except.error (ParseError.unclosed (Token.current inner.2))) := by
  match result with
  | .error fault => exact .groupFault hOpens hInner
  | .ok (e, after) =>
      show Reads _ _ (if (Token.current after).kind = .rightParen then _ else _)
      by_cases hCloses : (Token.current after).kind = .rightParen
      · rw [if_pos hCloses]
        match after, hCloses with
        | closing :: after, hCloses => exact .group hOpens hCloses hInner
      · rw [if_neg hCloses]
        exact .unclosed hOpens hCloses hInner

/-- What the readers make of some tokens is a way in which a reading can go. -/
theorem of_read (reader : Reader) (ts : List Token) : Reads reader ts (reader.read ts) := by
  match reader with
  | .whole (.chain level) =>
      rw [Reader.read_chain]
      exact chain_bind (of_read (.whole level.operand) ts)
        fun e mid hRead => of_read (.tail level e) mid
  | .tail level left =>
      rcases level.ends_or_joins ts with hEnds | ⟨token, rest, operator, hTs, hJoins⟩
      · rw [Reader.read_stop left hEnds]
        exact .stop hEnds
      · have hShorter : rest.length < ts.length := by simp [hTs]
        rw [hTs, Reader.read_more left rest hJoins]
        exact more_bind hJoins (of_read (.whole level.operand) rest)
          fun right mid hRead => of_read (.tail level (.binary operator left right)) mid
  | .whole .unary =>
      by_cases hMinus : (Token.current ts).kind = .minus
      · match ts, hMinus with
        | token :: rest, (hMinus : token.kind = .minus) =>
            rw [Reader.read_negate rest hMinus]
            exact negate_bind hMinus (of_read (.whole .unary) rest)
      · rw [Reader.read_plain hMinus]
        exact .plain hMinus (of_read (.whole .primary) ts)
  | .whole .primary =>
      rcases Token.primary_cases ts with
        hKind | ⟨token, rest, hTs, hOpens | ⟨e, hAtom⟩ | ⟨fault, hMalformed⟩⟩
      · rw [Reader.read_unexpected hKind]
        exact .unexpected hKind
      · have hShorter : rest.length < ts.length := by simp [hTs]
        rw [hTs, Reader.read_group rest hOpens]
        exact group_bind hOpens (of_read (.whole (.chain .term)) rest)
      · rw [hTs, Reader.read_atom rest hAtom]
        exact .atom hAtom
      · rw [hTs, Reader.read_malformed rest hMalformed]
        exact .malformed hMalformed
termination_by (ts.length, reader.rank)
decreasing_by
  · exact Prod.Lex.right _ level.rank_operand_lt
  · exact Prod.Lex.left _ _ (Reader.read_lt hRead)
  · exact Prod.Lex.left _ _ hShorter
  · exact Prod.Lex.left _ _ (Nat.lt_trans (Reader.read_lt hRead) hShorter)
  · exact Prod.Lex.left _ _ (Nat.lt_succ_self rest.length)
  · exact Prod.Lex.right _ (by decide)
  · exact Prod.Lex.left _ _ hShorter

end Reads

/-- **The ways of a reading** are those of the parser. -/
theorem reads_iff {reader : Reader} {ts : List Token} {result : Reading} :
    Reads reader ts result ↔ reader.read ts = result := by
  constructor
  · intro h
    induction h with
    | chain _ _ ihFirst ihMore =>
        rw [Reader.read_chain, ihFirst]
        exact ihMore
    | chainFault _ ihFirst =>
        rw [Reader.read_chain, ihFirst]
        rfl
    | stop ends => exact Reader.read_stop _ ends
    | more joins _ _ ihOperand ihMore =>
        rw [Reader.read_more _ _ joins, ihOperand]
        exact ihMore
    | moreFault joins _ ihOperand =>
        rw [Reader.read_more _ _ joins, ihOperand]
        rfl
    | negate minus _ ihOperand =>
        rw [Reader.read_negate _ minus, ihOperand]
        rfl
    | negateFault minus _ ihOperand =>
        rw [Reader.read_negate _ minus, ihOperand]
        rfl
    | plain minus _ ih => rw [Reader.read_plain minus, ih]
    | atom atom => exact Reader.read_atom _ atom
    | malformed malformed => exact Reader.read_malformed _ malformed
    | group opens closes _ ih =>
        rw [Reader.read_group _ opens, ih]
        exact if_pos closes
    | groupFault opens _ ih =>
        rw [Reader.read_group _ opens, ih]
        rfl
    | unclosed opens closes _ ih =>
        rw [Reader.read_group _ opens, ih]
        exact if_neg closes
    | unexpected kind => exact Reader.read_unexpected kind
  · rintro rfl
    exact .of_read reader ts

namespace Expr

variable {ts : List Token}

theorem parseTokens_eq_ok_iff {e : Expr} :
    parseTokens ts = .ok e ↔ ∃ rest, Reads (.whole (.chain .term)) ts (.ok (e, rest)) := by
  have hRead : (Reader.whole (.chain .term)).read ts = Reading.of (parseTerm ts) := rfl
  simp only [reads_iff, hRead, parseTokens]
  cases parseTerm ts <;> simp [Except.map, Reading.of]

theorem parseTokens_eq_error_iff {fault : ParseError} :
    parseTokens ts = .error fault ↔ Reads (.whole (.chain .term)) ts (.error fault) := by
  have hRead : (Reader.whole (.chain .term)).read ts = Reading.of (parseTerm ts) := rfl
  simp only [reads_iff, hRead, parseTokens]
  cases parseTerm ts <;> simp [Except.map, Reading.of]

end Expr

end NoteSheet
