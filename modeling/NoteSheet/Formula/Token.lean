/-!
# Formula tokens

A token is a piece of formula text with its kind and the place where it starts.
Places are counted in bytes of the text's UTF-8 form.
-/

namespace NoteSheet

/-- What a piece of formula text is. -/
inductive TokenKind where
  | plus
  | minus
  | times
  | divide
  | equal
  | semicolon
  | leftParen
  | rightParen
  | number
  /-- `$` and an item identifier. -/
  | absoluteRef
  /-- `$`, a direction letter and a number of steps. -/
  | relativeRef
  /-- `$` and any other word that begins with a letter. -/
  | variableRef
  | identifier
  /-- A piece that is none of the others. -/
  | illegal
  | endOfInput
deriving DecidableEq, Repr

/-- How messages name a kind of token. -/
def TokenKind.name : TokenKind → String
  | plus => "'+'"
  | minus => "'-'"
  | times => "'*'"
  | divide => "'/'"
  | equal => "'='"
  | semicolon => "';'"
  | leftParen => "'('"
  | rightParen => "')'"
  | number => "number"
  | absoluteRef => "absolute reference"
  | relativeRef => "relative reference"
  | variableRef => "variable reference"
  | identifier => "identifier"
  | illegal => "illegal token"
  | endOfInput => "end of input"

/-- A piece of formula text. -/
structure Token where
  kind : TokenKind
  /-- The text of the piece. A variable reference leaves out its `$`, and the end
  of the input is empty. -/
  literal : String
  /-- The byte at which the piece starts. -/
  offset : Nat
deriving DecidableEq, Repr

end NoteSheet
