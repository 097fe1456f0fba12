import NoteSheet.Formula.Expr
import NoteSheet.Formula.Literal

/-!
# Reading formulas

The grammar of formulas over their tokens:

    term    = factor (("+" | "-") factor)*
    factor  = unary (("*" | "/") unary)*
    unary   = "-" unary | primary
    primary = number | absolute | relative | "(" term ")"

Both chains group to the left. A formula is the longest term at its front:
tokens after it are ignored, so `1 2` reads as `1`. A text of more than
`maxTokens` tokens is refused, whatever it says, and not read to its end.

Every reader returns the tokens it left over, with a proof that they are fewer.
-/

namespace NoteSheet

/-- The largest number of tokens in a formula, the end of the input not counted. -/
def maxTokens : Nat := 1000

/-- Why a text is not a formula. -/
inductive ParseError where
  /-- There are more than `maxTokens` tokens. -/
  | tooLong
  /-- A token stands where no expression can begin. -/
  | unexpected (token : Token)
  /-- A token stands where a parenthesis should close. -/
  | unclosed (found : Token)
  /-- A reference token whose literal names nothing. -/
  | invalidReference (fault : Literal.Fault)
deriving DecidableEq, Repr

/-- The wording of a parse error. -/
def ParseError.message : ParseError → String
  | tooLong => "Expression too long: more than " ++ Nat.repr maxTokens ++ " tokens"
  | unexpected token =>
      if token.kind = .endOfInput then
        "Parse error: Unexpected end of input at offset " ++ Nat.repr token.offset
      else
        "Parse error: Unexpected " ++ token.kind.name ++ " '" ++ token.literal ++ "' at offset " ++
          Nat.repr token.offset
  | unclosed found =>
      "Parse error: Expected ')' after expression. Got " ++ found.kind.name ++ " at offset " ++
        Nat.repr found.offset
  | invalidReference fault => "Invalid reference: " ++ fault.message

/-- An expression read off the front of a token list, and what is left over. -/
structure Parsed (bound : Nat) where
  expr : Expr
  rest : List Token
  rest_lt : rest.length < bound

namespace Parsed

/-- Keeps the reading under a larger bound. -/
def widen {small large : Nat} (parsed : Parsed small) (h : small ≤ large) : Parsed large :=
  ⟨parsed.expr, parsed.rest, Nat.lt_of_lt_of_le parsed.rest_lt h⟩

end Parsed

/-- The token at the front; an empty list stands for the end of an empty input. -/
def Token.current : List Token → Token
  | [] => ⟨.endOfInput, "", 0⟩
  | token :: _ => token

/-- The operator of a token that continues a term. -/
def TokenKind.additive? : TokenKind → Option Operator
  | plus => some .add
  | minus => some .subtract
  | _ => none

/-- The operator of a token that continues a factor. -/
def TokenKind.multiplicative? : TokenKind → Option Operator
  | times => some .multiply
  | divide => some .divide
  | _ => none

namespace Expr

mutual

/-- Reads a term. -/
def parseTerm (ts : List Token) : Except ParseError (Parsed ts.length) :=
  match parseFactor ts with
  | .error fault => .error fault
  | .ok first =>
      match parseTermTail first.expr first.rest with
      | .error fault => .error fault
      | .ok whole => .ok (whole.widen first.rest_lt)
termination_by 5 * ts.length + 4
decreasing_by
  · omega
  · have h := first.rest_lt
    omega

/-- Reads what continues a term whose front is `left`. -/
def parseTermTail (left : Expr) (ts : List Token) : Except ParseError (Parsed (ts.length + 1)) :=
  match ts with
  | [] => .ok ⟨left, [], by simp⟩
  | token :: rest =>
      match token.kind.additive? with
      | none => .ok ⟨left, token :: rest, by simp⟩
      | some operator =>
          match parseFactor rest with
          | .error fault => .error fault
          | .ok right =>
              match parseTermTail (.binary operator left right.expr) right.rest with
              | .error fault => .error fault
              | .ok whole => .ok (whole.widen (by
                  have h := right.rest_lt
                  simp only [List.length_cons]
                  omega))
termination_by 5 * ts.length
decreasing_by
  · simp only [List.length_cons]
    omega
  · have h := right.rest_lt
    simp only [List.length_cons]
    omega

/-- Reads a factor. -/
def parseFactor (ts : List Token) : Except ParseError (Parsed ts.length) :=
  match parseUnary ts with
  | .error fault => .error fault
  | .ok first =>
      match parseFactorTail first.expr first.rest with
      | .error fault => .error fault
      | .ok whole => .ok (whole.widen first.rest_lt)
termination_by 5 * ts.length + 3
decreasing_by
  · omega
  · have h := first.rest_lt
    omega

/-- Reads what continues a factor whose front is `left`. -/
def parseFactorTail (left : Expr) (ts : List Token) :
    Except ParseError (Parsed (ts.length + 1)) :=
  match ts with
  | [] => .ok ⟨left, [], by simp⟩
  | token :: rest =>
      match token.kind.multiplicative? with
      | none => .ok ⟨left, token :: rest, by simp⟩
      | some operator =>
          match parseUnary rest with
          | .error fault => .error fault
          | .ok right =>
              match parseFactorTail (.binary operator left right.expr) right.rest with
              | .error fault => .error fault
              | .ok whole => .ok (whole.widen (by
                  have h := right.rest_lt
                  simp only [List.length_cons]
                  omega))
termination_by 5 * ts.length
decreasing_by
  · simp only [List.length_cons]
    omega
  · have h := right.rest_lt
    simp only [List.length_cons]
    omega

/-- Reads a unary expression. Minus signs group to the right. -/
def parseUnary (ts : List Token) : Except ParseError (Parsed ts.length) :=
  match ts with
  | [] => .error (.unexpected (Token.current []))
  | token :: rest =>
      if token.kind = .minus then
        match parseUnary rest with
        | .error fault => .error fault
        | .ok operand => .ok ⟨.negate operand.expr, operand.rest, Nat.lt_succ_of_lt operand.rest_lt⟩
      else parsePrimary token rest
termination_by 5 * ts.length + 2
decreasing_by
  · simp only [List.length_cons]
    omega
  · omega

/-- Reads a primary expression that starts with `token`. -/
def parsePrimary (token : Token) (rest : List Token) :
    Except ParseError (Parsed (token :: rest).length) :=
  match token.kind with
  | .number => .ok ⟨.number (Literal.number token.literal), rest, by simp⟩
  | .absoluteRef =>
      match Literal.absolute token.literal with
      | .error fault => .error (.invalidReference fault)
      | .ok id => .ok ⟨.absolute id, rest, by simp⟩
  | .relativeRef =>
      match Literal.relative token.literal with
      | .error fault => .error (.invalidReference fault)
      | .ok (direction, steps) => .ok ⟨.relative direction steps, rest, by simp⟩
  | .leftParen =>
      match parseTerm rest with
      | .error fault => .error fault
      | .ok inner =>
          match hClose : inner.rest with
          | [] => .error (.unclosed (Token.current []))
          | close :: after =>
              if close.kind = .rightParen then
                .ok ⟨.group inner.expr, after, by
                  have h := inner.rest_lt
                  rw [hClose] at h
                  simp only [List.length_cons] at h ⊢
                  omega⟩
              else .error (.unclosed close)
  | _ => .error (.unexpected token)
termination_by 5 * (token :: rest).length + 1
decreasing_by
  simp only [List.length_cons]
  omega

end

/-- Reads a formula from its tokens. -/
def parseTokens (ts : List Token) : Except ParseError Expr :=
  (parseTerm ts).map Parsed.expr

/-- Reads a formula, without the `=` that a note's title begins with. -/
def parse (text : String) : Except ParseError Expr :=
  match (Lexer.ofText text).upTo? maxTokens with
  | none => .error .tooLong
  | some ts => parseTokens ts

end Expr

end NoteSheet
