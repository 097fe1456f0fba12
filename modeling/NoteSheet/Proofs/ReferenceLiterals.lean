import Mathlib.Data.List.Forall2
import Mathlib.Data.Nat.Digits.Defs
import NoteSheet.Proofs.Printing
import NoteSheet.Proofs.References

/-!
# Reference literals

The lexer decides what kind of reference a `$` and a word are, and the parser reads the literal
of that kind again. The two agree: what the lexer passes as a reference is never refused as one.
`Token.Names` says what the literal of a reference names, by its characters alone, and every
reference of a formula is named by a token of its own (`Derives.references_named`).

A direction letter and digits are a relative reference of as many steps as the digits say, or
of the most that 32 bits hold if they say more. Only 31 digits are read otherwise: with the
letter they are as wide as an identifier, and an identifier they are if the letter is a
hexadecimal digit.

Main statement: `Expr.parse_reads_references`.
-/

namespace NoteSheet

/-! ## What literals name -/

/-- The number that decimal digits say, each weighed by its place. -/
def Decimal.placeValue (digits : List Char) : Nat :=
  Nat.ofDigits 10 (digits.reverse.map fun c => c.toNat - '0'.toNat)

theorem Decimal.ofDigits_eq_placeValue (digits : List Char) :
    ofDigits digits = placeValue digits := by
  unfold ofDigits placeValue
  induction digits with
  | nil => rfl
  | cons c digits ih =>
      rw [Nat.ofDigitChars_cons, Nat.ofDigitChars_eq_ofDigitChars_zero, ih, Nat.mul_zero,
        Nat.zero_add, List.reverse_cons, List.map_append, Nat.ofDigits_append, List.length_map,
        List.length_reverse, List.map_cons, List.map_nil, Nat.ofDigits_singleton, Nat.add_comm]

/-- The letter names the direction, in either case. -/
def Direction.IsLetter (direction : Direction) (letter : Char) : Prop :=
  letter = direction.letter ∨ letter = direction.letter.toLower

/-- A token is the reference that its literal spells. -/
inductive Token.Names : Token → Reference → Prop
  | absolute {token : Token} {id : Uid} (kind : token.kind = .absoluteRef)
      (spells : token.literal.toList = '$' :: id.digits) : Names token (.absolute id)
  | relative {token : Token} {direction : Direction} {letter : Char} {digits : List Char}
      (kind : token.kind = .relativeRef) (spells : token.literal.toList = '$' :: letter :: digits)
      (letters : direction.IsLetter letter) (nonempty : digits ≠ [])
      (all_digits : ∀ c ∈ digits, c.isDigit = true) :
      Names token (.relative direction (min (Decimal.placeValue digits) (2 ^ 32 - 1)))

/-- Whether a token is a reference to a cell. -/
def Token.isReference (token : Token) : Bool :=
  token.kind == .absoluteRef || token.kind == .relativeRef

theorem Direction.isLetter_of_ofLetter? {direction : Direction} {letter : Char}
    (h : ofLetter? letter = some direction) : direction.IsLetter letter := by
  have hLetter : direction.letter = letter.toUpper := by simpa using List.find?_some h
  exact eq_or_eq_of_letter_eq_toUpper hLetter

section Letters

variable {direction : Direction} {letter : Char} (h : direction.IsLetter letter)
include h

theorem Direction.IsLetter.ofLetter? : Direction.ofLetter? letter = some direction := by
  rcases h with rfl | rfl <;> cases direction <;> rfl

/-- Of the direction letters, the hexadecimal digits are those that point down. -/
theorem Direction.IsLetter.isHexDigit_iff : isHexDigit letter = true ↔ direction = .down := by
  rcases h with rfl | rfl <;> cases direction <;> decide

end Letters

theorem Literal.body_of_relative {literal : String} {direction : Direction} {steps : Nat}
    (h : relative literal = .ok (direction, steps)) :
    ∃ letter digits, body literal = letter :: digits ∧ direction.IsLetter letter ∧
      digits ≠ [] ∧ (∀ c ∈ digits, c.isDigit = true) ∧
      steps = min (Decimal.placeValue digits) (2 ^ 32 - 1) := by
  obtain ⟨letter, digits, hBody, hLetter, hNonempty, hDigits, hSteps⟩ := relative_eq_ok_iff.mp h
  refine ⟨letter, digits, hBody, Direction.isLetter_of_ofLetter? hLetter, hNonempty,
    List.all_eq_true.mp hDigits, ?_⟩
  rw [hSteps, Decimal.ofDigits_eq_placeValue]
  rfl

/-! ## References of formulas -/

/-- An operator is no reference. -/
theorem Level.isReference_eq_false {level : Level} {token : Token} {operator : Operator}
    (hJoins : (token.kind, operator) ∈ level.operators) : token.isReference = false := by
  unfold Token.isReference
  generalize token.kind = kind at hJoins ⊢
  revert hJoins
  cases level <;> cases kind <;> cases operator <;> decide

/-- The literals of the reference tokens begin with a `$`. -/
def Dollared (ts : List Token) : Prop :=
  ∀ token ∈ ts, token.isReference = true → ∃ word, token.literal.toList = '$' :: word

theorem dollared_of_pieces {text : String} {front rest : List Token}
    (h : pieces text = front ++ rest) : Dollared front := by
  intro token hMem hReference
  have hPlaced : token ∈ pieces text := h ▸ List.mem_append_left rest hMem
  obtain ⟨before, after, -, -, hCut⟩ := (cuts_pieces text).placed hPlaced
  have hKind : token.kind = .absoluteRef ∨ token.kind = .relativeRef := by
    simpa [Token.isReference] using hReference
  obtain ⟨word, hLiteral, -⟩ := hCut.literal_of_reference hKind
  exact ⟨word, hLiteral⟩

theorem Atom.references_named {token : Token} {e : Expr} (h : Atom token e)
    (hDollared : Dollared [token]) :
    List.Forall₂ Token.Names ([token].filter Token.isReference) e.references := by
  cases h with
  | number kind =>
      have hOther : token.isReference = false := by simp [Token.isReference, kind]
      rw [List.filter_singleton, hOther]
      exact .nil
  | absolute kind names =>
      have hReference : token.isReference = true := by simp [Token.isReference, kind]
      obtain ⟨word, hLiteral⟩ := hDollared token (List.mem_singleton_self token) hReference
      have hBody := Literal.absolute_eq_ok_iff.mp names
      rw [Literal.body_of_dollar hLiteral] at hBody
      rw [List.filter_singleton, hReference]
      exact .cons (.absolute kind (hBody ▸ hLiteral)) .nil
  | relative kind names =>
      have hReference : token.isReference = true := by simp [Token.isReference, kind]
      obtain ⟨word, hLiteral⟩ := hDollared token (List.mem_singleton_self token) hReference
      obtain ⟨letter, digits, hBody, hLetter, hNonempty, hDigits, rfl⟩ :=
        Literal.body_of_relative names
      rw [Literal.body_of_dollar hLiteral] at hBody
      rw [List.filter_singleton, hReference]
      exact .cons (.relative kind (hBody ▸ hLiteral) hLetter hNonempty hDigits) .nil

/-- **One token for one reference**: the reference tokens that an expression is derived from
name its references, one each and in the same order. -/
theorem Derives.references_named {category : Category} {ts : List Token} {e : Expr}
    (h : Derives category ts e) (hDollared : Dollared ts) :
    List.Forall₂ Token.Names (ts.filter Token.isReference) e.references := by
  induction h with
  | operand _ ih => exact ih hDollared
  | join _ joins _ ihChain ihOperand =>
      rw [List.filter_append, List.filter_cons_of_neg (by simp [Level.isReference_eq_false joins])]
      exact List.rel_append
        (ihChain fun token hMem => hDollared token (List.mem_append_left _ hMem))
        (ihOperand fun token hMem => hDollared token (List.mem_append_right _ (.tail _ hMem)))
  | negate minus _ ih =>
      rw [List.filter_cons_of_neg (by simp [Token.isReference, minus])]
      exact ih fun token hMem => hDollared token (.tail _ hMem)
  | plain _ ih => exact ih hDollared
  | atom atom => exact atom.references_named hDollared
  | @group opening closing ts e opens closes _ ih =>
      have hClosing : [closing].filter Token.isReference = [] := by
        rw [List.filter_cons_of_neg (by simp [Token.isReference, closes]), List.filter_nil]
      rw [List.cons_append, List.filter_cons_of_neg (by simp [Token.isReference, opens]),
        List.filter_append, hClosing, List.append_nil]
      exact ih fun token hMem => hDollared token (.tail _ (List.mem_append_left _ hMem))

/-! ## Texts of a single piece -/

section Single

variable {text : String} {kind : TokenKind}

theorem pieces_of_piece (hPiece : IsPiece kind text.toList []) (hKind : kind ≠ .variableRef) :
    pieces text = [⟨kind, text, 0⟩] := by
  have hEnd : Cuts (0 + byteLength text.toList) [] [] := .done (by simp)
  have hCuts := Cuts.cons hPiece hKind hEnd
  rw [List.append_nil, String.ofList_toList] at hCuts
  exact pieces_of_cuts hCuts

namespace Expr

theorem parse_of_atom {e : Expr} (hPiece : IsPiece kind text.toList [])
    (hKind : kind ≠ .variableRef) (hAtom : Atom ⟨kind, text, 0⟩ e) : parse text = .ok e := by
  have hPieces := pieces_of_piece hPiece hKind
  have hPrimary : Derives .primary (pieces text) e := hPieces ▸ .atom hAtom
  rw [parse_eq_ok_iff (by simp [hPieces, maxTokens])]
  exact ⟨_, [], (List.append_nil _).symm, hPrimary.widen (Category.rank_le _), by simp⟩

theorem parse_of_illegal (hPiece : IsPiece .illegal text.toList []) :
    parse text = .error (.unexpected ⟨.illegal, text, 0⟩) := by
  have hPieces := pieces_of_piece hPiece (by decide)
  have hPrimary : Reads (.whole .primary) (tokenize text)
      (.error (.unexpected ⟨.illegal, text, 0⟩)) := by
    rw [tokenize_eq, hPieces]
    exact .unexpected (show TokenKind.illegal ∉ primaryKinds by decide)
  have hMinus : (Token.current (tokenize text)).kind ≠ .minus := by
    rw [tokenize_eq, hPieces]
    exact show TokenKind.illegal ≠ .minus by decide
  rw [parse_of_le (by simp [hPieces, maxTokens]), parseTokens_eq_error_iff]
  -- Nothing has been read before the primary expression fails.
  have hFactor : Reads (.whole (.chain .factor)) (tokenize text) _ :=
    .chainFault (.plain hMinus hPrimary)
  exact .chainFault hFactor

end Expr

end Single

/-! ## Directions and digits -/

section Steps

variable {direction : Direction} {letter : Char} {digits : List Char} {text : String}
  (hLetter : direction.IsLetter letter) (hNonempty : digits ≠ [])
  (hDigits : ∀ c ∈ digits, c.isDigit = true) (hText : text.toList = '$' :: letter :: digits)
include hLetter hNonempty hDigits

theorem isSteps_of_isLetter : isSteps (letter :: digits) = true := by
  have hAll : digits.all Char.isDigit = true := List.all_eq_true.mpr hDigits
  simp [isSteps, hLetter.ofLetter?, hNonempty, hAll]

include hText

theorem isPiece_of_steps {kind : TokenKind} (hKind : ReferenceKind (letter :: digits) kind) :
    IsPiece kind text.toList [] := by
  have hSteps := isSteps_iff.mp (isSteps_of_isLetter hLetter hNonempty hDigits)
  rw [hText]
  exact .of_word hSteps.isWordChar hKind .nil

namespace Expr

theorem parse_of_steps (hWidth : digits.length ≠ 31) :
    parse text = .ok (.relative direction (min (Decimal.placeValue digits) (2 ^ 32 - 1))) := by
  have hSteps := isSteps_of_isLetter hLetter hNonempty hDigits
  have hKind : ReferenceKind (letter :: digits) .relativeRef := by
    refine .relative ?_ (isSteps_iff.mp hSteps)
    rw [List.length_cons]
    omega
  have hNames : Literal.relative text =
      .ok (direction, min (Decimal.placeValue digits) (2 ^ 32 - 1)) := by
    refine Literal.relative_eq_ok_iff.mpr ⟨letter, digits, Literal.body_of_dollar hText,
      hLetter.ofLetter?, hNonempty, List.all_eq_true.mpr hDigits, ?_⟩
    rw [Decimal.ofDigits_eq_placeValue]
    rfl
  exact parse_of_atom (isPiece_of_steps hLetter hNonempty hDigits hText hKind) (by decide)
    (.relative rfl hNames)

theorem parse_of_wide_down (hWidth : digits.length = 31) (hDown : direction = .down) :
    ∃ id : Uid, id.digits = letter :: digits ∧ parse text = .ok (.absolute id) := by
  have hWide : (letter :: digits).length = 32 := by rw [List.length_cons, hWidth]
  have hHex : ∀ c ∈ letter :: digits, isHexDigit c = true := by
    intro c hMem
    rcases List.mem_cons.mp hMem with rfl | hMem
    · exact hLetter.isHexDigit_iff.mpr hDown
    · simp [isHexDigit, hDigits c hMem]
  let id : Uid := ⟨letter :: digits, hWide, List.all_eq_true.mpr hHex⟩
  have hNames : Literal.absolute text = .ok id :=
    Literal.absolute_eq_ok_iff.mpr (Literal.body_of_dollar hText)
  refine ⟨id, rfl, ?_⟩
  exact parse_of_atom (isPiece_of_steps hLetter hNonempty hDigits hText (.absolute hWide hHex))
    (by decide) (.absolute rfl hNames)

theorem parse_of_wide_other (hWidth : digits.length = 31) (hOther : direction ≠ .down) :
    parse text = .error (.unexpected ⟨.illegal, text, 0⟩) := by
  have hWide : (letter :: digits).length = 32 := by rw [List.length_cons, hWidth]
  have hHex : ¬ ∀ c ∈ letter :: digits, isHexDigit c = true := fun hAll =>
    hOther (hLetter.isHexDigit_iff.mp (hAll letter List.mem_cons_self))
  exact parse_of_illegal (isPiece_of_steps hLetter hNonempty hDigits hText (.malformed hWide hHex))

end Expr

end Steps

/-! ## The two readings agree -/

namespace Expr

/-- No text is refused because a reference in it names nothing. -/
theorem parse_ne_invalidReference (text : String) (fault : Literal.Fault) :
    parse text ≠ .error (.invalidReference fault) := by
  intro hParse
  rcases Nat.lt_or_ge maxTokens (pieces text).length with hMany | hFew
  · rw [parse_of_lt hMany] at hParse
    cases hParse
  · rw [parse_of_le hFew, parseTokens_eq_error_iff] at hParse
    obtain ⟨token, hFault | hFault⟩ := hParse.fault fun _ => not_malformed_of_mem_tokenize
    · cases hFault
    · cases hFault

theorem exists_isFormula_of_parse {text : String} {e : Expr} (hParse : parse text = .ok e) :
    ∃ front rest, IsFormula (pieces text) e front rest :=
  (parse_eq_ok_iff (length_pieces_le_of_parse hParse)).mp hParse

/-- **Lexer and parser agree on references.** No text is refused for a reference that names
nothing. In a formula each reference comes from a reference token of its own, and is what the
literal of the token spells. A text of a direction letter in either case and digits is a relative
reference of as many steps as the digits say, up to the most that 32 bits hold. With 31 digits it
is as wide as an identifier: if it points down it is one, and otherwise it is no formula. -/
theorem parse_reads_references :
    (∀ text fault, parse text ≠ .error (.invalidReference fault)) ∧
    (∀ text e, parse text = .ok e → ∃ front rest, IsFormula (pieces text) e front rest ∧
      List.Forall₂ Token.Names (front.filter Token.isReference) e.references) ∧
    ∀ (direction : Direction) (letter : Char) (digits : List Char) (text : String),
      direction.IsLetter letter → digits ≠ [] → (∀ c ∈ digits, c.isDigit = true) →
      text.toList = '$' :: letter :: digits →
        (digits.length ≠ 31 → parse text =
          .ok (.relative direction (min (Decimal.placeValue digits) (2 ^ 32 - 1)))) ∧
        (digits.length = 31 → direction = .down →
          ∃ id : Uid, id.digits = letter :: digits ∧ parse text = .ok (.absolute id)) ∧
        (digits.length = 31 → direction ≠ .down →
          parse text = .error (.unexpected ⟨.illegal, text, 0⟩)) := by
  refine ⟨parse_ne_invalidReference, ?_, ?_⟩
  · intro text e hParse
    obtain ⟨front, rest, hFormula⟩ := exists_isFormula_of_parse hParse
    exact ⟨front, rest, hFormula,
      hFormula.derives.references_named (dollared_of_pieces hFormula.split)⟩
  · intro direction letter digits text hLetter hNonempty hDigits hText
    exact ⟨parse_of_steps hLetter hNonempty hDigits hText,
      parse_of_wide_down hLetter hNonempty hDigits hText,
      parse_of_wide_other hLetter hNonempty hDigits hText⟩

/-- One step more than the most. -/
example : parse "$u04294967296" = .ok (.relative .up 4294967295) := by decide +kernel

end Expr

end NoteSheet
