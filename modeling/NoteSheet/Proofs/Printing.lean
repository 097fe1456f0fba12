import NoteSheet.Proofs.Grammar

/-!
# Printing expressions

An expression is printed by writing its nodes one after the other; no parentheses are added
to those that it has. What is printed reads as the expression again if the tree respects
precedence, that is, if no operand would have needed parentheses. The parser builds no other
trees.

The categories of the grammar are ranked by how much they admit. A tree respects precedence
just when no operand has a wider category than the grammar has in its place, so the trees of
the grammar do (`Derives.respectsPrecedence`), and what is printed of such a tree is derived
again (`Prints.derives`).

Main statement: `Expr.parse_undoes_printing`.
-/

namespace NoteSheet

/-! ## Precedence -/

namespace Expr

/-- A sum or a difference that is not in parentheses. -/
def IsSum : Expr → Prop
  | binary .add _ _ => True
  | binary .subtract _ _ => True
  | _ => False

/-- A product or a quotient that is not in parentheses. -/
def IsProduct : Expr → Prop
  | binary .multiply _ _ => True
  | binary .divide _ _ => True
  | _ => False

/-- Any operator between two operands that is not in parentheses. -/
def IsBinary : Expr → Prop
  | binary _ _ _ => True
  | _ => False

/-- No operand of the expression would have to be put in parentheses. -/
def RespectsPrecedence : Expr → Prop
  | number _ => True
  | absolute _ => True
  | relative _ _ => True
  | group inner => inner.RespectsPrecedence
  | negate operand => ¬ operand.IsBinary ∧ operand.RespectsPrecedence
  | binary operator left right =>
      (operator = .add ∨ operator = .subtract → ¬ right.IsSum) ∧
        (operator = .multiply ∨ operator = .divide →
          ¬ left.IsSum ∧ ¬ right.IsSum ∧ ¬ right.IsProduct) ∧
        left.RespectsPrecedence ∧ right.RespectsPrecedence

end Expr

/-- The level of an operator. -/
def Operator.level : Operator → Level
  | add => .term
  | subtract => .term
  | multiply => .factor
  | divide => .factor

/-- The narrowest category of an expression. -/
def Expr.category : Expr → Category
  | number _ => .primary
  | absolute _ => .primary
  | relative _ _ => .primary
  | group _ => .primary
  | negate _ => .unary
  | binary operator _ _ => .chain operator.level

theorem Category.rank_le (category : Category) : category.rank ≤ 3 := by
  match category with
  | .chain .term | .chain .factor | .unary | .primary => decide

theorem Category.rank_injective {category other : Category} (h : category.rank = other.rank) :
    category = other := by
  match category, other with
  | .chain .term, .chain .term => rfl
  | .chain .factor, .chain .factor => rfl
  | .unary, .unary => rfl
  | .primary, .primary => rfl

theorem Operator.level_eq {kind : TokenKind} {operator : Operator} {level : Level}
    (h : (kind, operator) ∈ level.operators) : level = operator.level := by
  cases level <;> cases operator <;> simp_all [Level.operators, Operator.level]

namespace Expr

theorem isSum_iff {e : Expr} : e.IsSum ↔ 2 < e.category.rank := by
  cases e with
  | binary operator _ _ =>
      cases operator <;> simp [IsSum, category, Operator.level, Category.rank]
  | _ => simp [IsSum, category, Category.rank]

theorem isProduct_iff {e : Expr} : e.IsProduct ↔ e.category.rank = 2 := by
  cases e with
  | binary operator _ _ =>
      cases operator <;> simp [IsProduct, category, Operator.level, Category.rank]
  | _ => simp [IsProduct, category, Category.rank]

theorem isBinary_iff {e : Expr} : e.IsBinary ↔ 1 < e.category.rank := by
  cases e with
  | binary operator _ _ =>
      cases operator <;> simp [IsBinary, category, Operator.level, Category.rank]
  | _ => simp [IsBinary, category, Category.rank]

theorem respectsPrecedence_negate_iff {e : Expr} :
    (negate e).RespectsPrecedence ↔
      e.category.rank ≤ Category.unary.rank ∧ e.RespectsPrecedence := by
  rw [RespectsPrecedence, isBinary_iff, Nat.not_lt]
  rfl

theorem respectsPrecedence_binary_iff {operator : Operator} {left right : Expr} :
    (binary operator left right).RespectsPrecedence ↔
      (left.category.rank ≤ (Category.chain operator.level).rank ∧
        right.category.rank ≤ operator.level.operand.rank) ∧
        left.RespectsPrecedence ∧ right.RespectsPrecedence := by
  have hTerm : (Category.chain .term).rank = 3 := rfl
  have hFactor : (Category.chain .factor).rank = 2 := rfl
  have hUnary : Category.unary.rank = 1 := rfl
  have hLeft := left.category.rank_le
  simp only [RespectsPrecedence, isSum_iff, isProduct_iff]
  cases operator <;> simp [Operator.level, Level.operand, hTerm, hFactor, hUnary] <;> omega

end Expr

namespace Derives

variable {category : Category} {ts : List Token} {e : Expr}

/-- Every tree of the grammar respects precedence. -/
theorem respectsPrecedence (h : Derives category ts e) :
    e.category.rank ≤ category.rank ∧ e.RespectsPrecedence := by
  induction h with
  | @operand level _ _ _ ih => exact ⟨Nat.le_trans ih.1 (Nat.le_of_lt level.rank_operand_lt), ih.2⟩
  | join _ joins _ ihChain ihOperand =>
      obtain rfl := Operator.level_eq joins
      exact ⟨Nat.le_refl _, Expr.respectsPrecedence_binary_iff.mpr
        ⟨⟨ihChain.1, ihOperand.1⟩, ihChain.2, ihOperand.2⟩⟩
  | negate _ _ ih => exact ⟨Nat.le_refl _, Expr.respectsPrecedence_negate_iff.mpr ih⟩
  | plain _ ih => exact ⟨Nat.le_succ_of_le ih.1, ih.2⟩
  | atom atom => cases atom <;> exact ⟨Nat.le_refl _, trivial⟩
  | group _ _ _ ih => exact ⟨Nat.le_refl _, ih.2⟩

/-- What is derived in a category is derived in every wider one. -/
theorem widen {wider : Category} (h : Derives category ts e) (hRank : category.rank ≤ wider.rank) :
    Derives wider ts e := by
  rcases Nat.lt_or_eq_of_le hRank with hLess | hSame
  · match wider with
    | .chain level =>
        have hOperand : category.rank ≤ level.operand.rank := by
          cases level <;> exact Nat.le_of_lt_succ hLess
        exact .operand (h.widen hOperand)
    | .unary => exact .plain (h.widen (Nat.le_of_lt_succ hLess))
    | .primary => exact absurd hLess (Nat.not_lt_zero _)
  · exact Category.rank_injective hSame ▸ h
termination_by wider.rank
decreasing_by
  · exact level.rank_operand_lt
  · decide

end Derives

/-! ## Printing -/

/-- The texts of an expression, all of whose numbers are written with some literal. -/
inductive Prints : Expr → List Char → Prop
  | number {value : Float} {literal : List Char} (numeral : IsNumeral literal)
      (denotes : Literal.number (String.ofList literal) = value) : Prints (.number value) literal
  | absolute (id : Uid) : Prints (.absolute id) ('$' :: id.digits)
  | relative (direction : Direction) {steps : Nat} (bound : steps < UInt32.size) :
      Prints (.relative direction steps) ('$' :: direction.letter :: Nat.toDigits 10 steps)
  | group {e : Expr} {cs : List Char} (inner : Prints e cs) :
      Prints (.group e) ('(' :: cs ++ [')'])
  | negate {e : Expr} {cs : List Char} (operand : Prints e cs) : Prints (.negate e) ('-' :: cs)
  | binary {operator : Operator} {left right : Expr} {cs ds : List Char} (front : Prints left cs)
      (back : Prints right ds) :
      Prints (.binary operator left right) (cs ++ operator.symbol :: ds)

/-- The double that is not a number is printed as a lone point. -/
example : Prints (.number Number.nan) ['.'] :=
  .number (isNumeral_singleton (Or.inr rfl)) rfl

/-! ## The pieces of a printed text -/

/-- What may come after an expression. -/
def Closes (after : List Char) : Prop := ∀ c ∈ after.head?, c ∈ ['+', '-', '*', '/', ')']

/-- An expression ends before anything that closes it: no number or word goes on there. -/
theorem Closes.breaks {after : List Char} (h : Closes after) : Breaks after := by
  cases after with
  | nil => exact .nil
  | cons c rest => exact .of_mem (h c (by simp)) rest (by decide)

/-! ## What is printed is read -/

theorem Direction.ofLetter?_letter (direction : Direction) :
    ofLetter? direction.letter = some direction := by
  cases direction <;> rfl

theorem isSteps_toDigits (direction : Direction) (steps : Nat) :
    isSteps (direction.letter :: Nat.toDigits 10 steps) = true := by
  have hDigits : (Nat.toDigits 10 steps).all Char.isDigit = true :=
    List.all_eq_true.mpr fun c hMem => Nat.isDigit_of_mem_toDigits (by decide) (by decide) hMem
  simp [isSteps, Direction.ofLetter?_letter, Nat.toDigits_ne_nil, hDigits]

/-- The steps of a reference are too few digits to be taken for an identifier. -/
theorem referenceKind_toDigits (direction : Direction) {steps : Nat} (h : steps < UInt32.size) :
    ReferenceKind (direction.letter :: Nat.toDigits 10 steps) .relativeRef := by
  have hLength : (Nat.toDigits 10 steps).length ≤ 10 :=
    (Nat.length_toDigits_le_iff (by decide) (by decide)).mpr (Nat.lt_of_lt_of_le h (by decide))
  refine .relative ?_ (isSteps_iff.mp (isSteps_toDigits direction steps))
  rw [List.length_cons]
  omega

theorem Literal.relative_toDigits (direction : Direction) {steps : Nat} (h : steps < UInt32.size) :
    relative (String.ofList ('$' :: direction.letter :: Nat.toDigits 10 steps)) =
      .ok (direction, steps) := by
  have hDigits : ∀ c ∈ Nat.toDigits 10 steps, c.isDigit = true :=
    fun c hMem => Nat.isDigit_of_mem_toDigits (by decide) (by decide) hMem
  refine relative_eq_ok_iff.mpr ⟨_, _, body_of_dollar String.toList_ofList,
    Direction.ofLetter?_letter direction, Nat.toDigits_ne_nil, List.all_eq_true.mpr hDigits, ?_⟩
  rw [Decimal.ofDigits, Nat.ofDigitChars_ten_toDigits]
  exact (Nat.min_eq_left (Nat.le_of_lt_succ h)).symm

/-- An operator joins the operands of its level. -/
theorem Operator.joins (operator : Operator) :
    ∃ kind, (operator.symbol, kind) ∈ symbols ∧ (kind, operator) ∈ operator.level.operators := by
  cases operator with
  | add => exact ⟨.plus, by decide, by decide⟩
  | subtract => exact ⟨.minus, by decide, by decide⟩
  | multiply => exact ⟨.times, by decide, by decide⟩
  | divide => exact ⟨.divide, by decide, by decide⟩

theorem Operator.closes (operator : Operator) (rest : List Char) :
    Closes (operator.symbol :: rest) := by
  cases operator <;> simp [Closes, symbol]

/-- **Printing and cutting**: the text of an expression that respects precedence is cut into
tokens that the grammar derives it from, whatever closes it. -/
theorem Prints.derives {e : Expr} {cs : List Char} (h : Prints e cs)
    (hRespects : e.RespectsPrecedence) {start : Nat} {rest : List Char} {tokens : List Token}
    (hCloses : Closes rest) (hRest : Cuts (start + byteLength cs) rest tokens) :
    ∃ ts, Cuts start (cs ++ rest) (ts ++ tokens) ∧ Derives e.category ts e := by
  -- The pieces are put together from the end of the text, the last operand first.
  induction h generalizing start rest tokens with
  | number numeral denotes =>
      subst denotes
      exact ⟨[_], .cons (.of_numeral numeral hCloses.breaks) (by simp) hRest, .atom (.number rfl)⟩
  | absolute id =>
      have hHex : ∀ c ∈ id.digits, isHexDigit c = true := List.all_eq_true.mp id.hex
      have hPiece : IsPiece .absoluteRef ('$' :: id.digits) rest :=
        .of_word (fun c hMem => isWordChar_of_isHexDigit (hHex c hMem))
          (.absolute id.width_eq hHex) hCloses.breaks
      have hNames : Literal.absolute (String.ofList ('$' :: id.digits)) = .ok id :=
        Literal.absolute_eq_ok_iff.mpr (Literal.body_of_dollar String.toList_ofList)
      exact ⟨[_], .cons hPiece (by simp) hRest, .atom (.absolute rfl hNames)⟩
  | @relative direction steps bound =>
      have hSteps := isSteps_iff.mp (isSteps_toDigits direction steps)
      have hPiece : IsPiece .relativeRef _ rest :=
        .of_word hSteps.isWordChar (referenceKind_toDigits direction bound) hCloses.breaks
      exact ⟨[_], .cons hPiece (by simp) hRest,
        .atom (.relative rfl (Literal.relative_toDigits direction bound))⟩
  | group _ ih =>
      rw [List.cons_append, byteLength_cons, byteLength_append, ← Nat.add_assoc,
        ← Nat.add_assoc] at hRest
      have hRight : (')', TokenKind.rightParen) ∈ symbols := by decide
      have hLeft : ('(', TokenKind.leftParen) ∈ symbols := by decide
      obtain ⟨closing, hCloses, hAfter⟩ := hRest.symbol hRight
      obtain ⟨ts, hInner, hDerives⟩ := ih hRespects (by simp [Closes]) hAfter
      obtain ⟨opening, hOpens, hCuts⟩ := hInner.symbol hLeft
      refine ⟨opening :: ts ++ [closing], by simpa using hCuts, ?_⟩
      exact .group hOpens hCloses (hDerives.widen (Category.rank_le _))
  | negate _ ih =>
      obtain ⟨hRank, hRespects⟩ := Expr.respectsPrecedence_negate_iff.mp hRespects
      rw [byteLength_cons, ← Nat.add_assoc] at hRest
      obtain ⟨ts, hOperand, hDerives⟩ := ih hRespects hCloses hRest
      have hSymbol : ('-', TokenKind.minus) ∈ symbols := by decide
      obtain ⟨minus, hMinus, hCuts⟩ := hOperand.symbol hSymbol
      exact ⟨minus :: ts, hCuts, .negate hMinus (hDerives.widen hRank)⟩
  | @binary operator left right cs ds _ _ ihLeft ihRight =>
      obtain ⟨⟨hLeft, hRight⟩, hRespectsLeft, hRespectsRight⟩ :=
        Expr.respectsPrecedence_binary_iff.mp hRespects
      obtain ⟨kind, hSymbol, hJoins⟩ := operator.joins
      rw [byteLength_append, byteLength_cons, ← Nat.add_assoc, ← Nat.add_assoc] at hRest
      obtain ⟨back, hBack, hDerivesRight⟩ := ihRight hRespectsRight hCloses hRest
      obtain ⟨token, rfl, hAfter⟩ := hBack.symbol hSymbol
      obtain ⟨front, hFront, hDerivesLeft⟩ :=
        ihLeft hRespectsLeft (operator.closes (ds ++ rest)) hAfter
      refine ⟨front ++ token :: back, by simpa using hFront, ?_⟩
      exact .join (hDerivesLeft.widen hLeft) hJoins (hDerivesRight.widen hRight)

/-! ## What is read can be printed -/

/-- The number of tokens of an expression. -/
def Expr.tokenCount : Expr → Nat
  | number _ => 1
  | absolute _ => 1
  | relative _ _ => 1
  | group inner => inner.tokenCount + 2
  | negate operand => operand.tokenCount + 1
  | binary _ left right => left.tokenCount + right.tokenCount + 1

theorem Derives.length_eq {category : Category} {ts : List Token} {e : Expr}
    (h : Derives category ts e) : ts.length = e.tokenCount := by
  induction h with
  | operand _ ih => exact ih
  | join _ _ _ ihChain ihOperand =>
      rw [List.length_append, List.length_cons, ihChain, ihOperand, Expr.tokenCount]
      omega
  | negate _ _ ih => rw [List.length_cons, ih, Expr.tokenCount]
  | plain _ ih => exact ih
  | atom atom => cases atom <;> rfl
  | group _ _ _ ih =>
      rw [List.length_append, List.length_cons, ih, Expr.tokenCount]
      rfl

theorem Literal.steps_lt_of_relative {literal : String} {direction : Direction} {steps : Nat}
    (h : relative literal = .ok (direction, steps)) : steps < UInt32.size := by
  obtain ⟨_, digits, -, -, -, -, rfl⟩ := relative_eq_ok_iff.mp h
  exact Nat.lt_succ_of_le (Nat.min_le_right _ maxSteps)

/-- What is derived from pieces of a text can be printed. -/
theorem Derives.prints {category : Category} {ts : List Token} {e : Expr}
    (h : Derives category ts e)
    (hNumerals : ∀ token ∈ ts, token.kind = .number → IsNumeral token.literal.toList) :
    ∃ cs, Prints e cs := by
  induction h with
  | operand _ ih => exact ih hNumerals
  | join _ _ _ ihChain ihOperand =>
      obtain ⟨cs, hLeft⟩ := ihChain fun token hMem => hNumerals token (List.mem_append_left _ hMem)
      obtain ⟨ds, hRight⟩ := ihOperand fun token hMem =>
        hNumerals token (List.mem_append_right _ (List.mem_cons_of_mem _ hMem))
      exact ⟨_, .binary hLeft hRight⟩
  | negate _ _ ih =>
      obtain ⟨cs, hOperand⟩ := ih fun token hMem => hNumerals token (List.mem_cons_of_mem _ hMem)
      exact ⟨_, .negate hOperand⟩
  | plain _ ih => exact ih hNumerals
  | atom atom =>
      cases atom with
      | number kind =>
          exact ⟨_, .number (hNumerals _ List.mem_cons_self kind) (by rw [String.ofList_toList])⟩
      | absolute _ _ => exact ⟨_, .absolute _⟩
      | relative _ names => exact ⟨_, .relative _ (Literal.steps_lt_of_relative names)⟩
  | group _ _ _ ih =>
      obtain ⟨cs, hInner⟩ := ih fun token hMem => hNumerals token (by simp [hMem])
      exact ⟨_, .group hInner⟩

theorem isNumeral_of_mem_pieces {text : String} {token : Token} (hMem : token ∈ pieces text)
    (hKind : token.kind = .number) : IsNumeral token.literal.toList := by
  obtain ⟨before, after, -, -, hCut⟩ := (cuts_pieces text).placed hMem
  rw [Token.span, if_neg (by simp [hKind]), hKind] at hCut
  exact hCut.numeral

/-! ## Printing and parsing -/

namespace Expr

theorem derives_pieces {e : Expr} {text : String} (h : Prints e text.toList)
    (hRespects : e.RespectsPrecedence) : Derives (.chain .term) (pieces text) e := by
  have hEnd : Cuts (0 + byteLength text.toList) [] [] := .done (by simp)
  obtain ⟨ts, hCuts, hDerives⟩ := h.derives hRespects (by simp [Closes]) hEnd
  rw [List.append_nil, List.append_nil] at hCuts
  rw [pieces_of_cuts hCuts]
  exact hDerives.widen (Category.rank_le _)

theorem parse_of_prints {e : Expr} {text : String} (h : Prints e text.toList)
    (hRespects : e.RespectsPrecedence) (hFew : e.tokenCount ≤ maxTokens) :
    parse text = .ok e := by
  have hDerives := derives_pieces h hRespects
  rw [parse_eq_ok_iff (by rwa [hDerives.length_eq])]
  exact ⟨_, [], (List.append_nil _).symm, hDerives, by simp⟩

/-- **Parsing undoes printing**. The text of an expression that respects precedence and takes
no more than a thousand tokens is read as the expression. All that is read respects
precedence, can be printed, and is read again from any text that it is printed as. -/
theorem parse_undoes_printing :
    (∀ (e : Expr) (text : String), Prints e text.toList → e.RespectsPrecedence →
      (pieces text).length ≤ 1000 → parse text = .ok e) ∧
    ∀ (text : String) (e : Expr), parse text = .ok e →
      e.RespectsPrecedence ∧ (∃ printed : String, Prints e printed.toList) ∧
        ∀ printed : String, Prints e printed.toList → parse printed = .ok e := by
  constructor
  · intro e text hPrints hRespects hFew
    have hCount := (derives_pieces hPrints hRespects).length_eq
    exact parse_of_prints hPrints hRespects (hCount ▸ hFew)
  · intro text e hParse
    have hFew : (pieces text).length ≤ maxTokens := by
      by_contra hMany
      rw [parse_of_lt (Nat.not_le.mp hMany)] at hParse
      cases hParse
    obtain ⟨front, rest, hSplit, hDerives, -⟩ := (parse_eq_ok_iff hFew).mp hParse
    have hRespects := hDerives.respectsPrecedence.2
    have hCount : e.tokenCount ≤ maxTokens := by
      rw [← hDerives.length_eq]
      rw [hSplit, List.length_append] at hFew
      omega
    have hMem : ∀ token ∈ front, token ∈ pieces text := fun token hMem => by
      rw [hSplit]
      exact List.mem_append_left rest hMem
    obtain ⟨cs, hPrints⟩ := hDerives.prints fun token hFront =>
      isNumeral_of_mem_pieces (hMem token hFront)
    refine ⟨hRespects, ⟨String.ofList cs, by rwa [String.toList_ofList]⟩, ?_⟩
    exact fun printed hPrinted => parse_of_prints hPrinted hRespects hCount

/-- A negated sum in parentheses, times a reference: the tree is read from its text, and from the
text with another literal for its number. -/
theorem parse_undoes_printing_nested :
    let sum := binary .add (number 2) (absolute (Uid.ofNat 1))
    let e := binary .multiply (negate (group sum)) (relative .up 3)
    let text := "-(2+$00000000000000000000000000000001)*$U3"
    let other := "-(2.0+$00000000000000000000000000000001)*$U3"
    Prints e text.toList ∧ e.RespectsPrecedence ∧ (pieces text).length = 8 ∧
      parse text = .ok e ∧ Prints e other.toList ∧ parse other = .ok e := by
  intro sum e text other
  obtain ⟨hReads, hReadAgain⟩ := parse_undoes_printing
  have hPrints (literal : List Char) (printed : String) (hNumeral : IsNumeral literal)
      (hValue : Literal.number (String.ofList literal) = 2)
      (hChars : printed.toList =
        '-' :: ('(' :: (literal ++ '+' :: '$' :: (Uid.ofNat 1).digits) ++ [')']) ++
          '*' :: '$' :: 'U' :: Nat.toDigits 10 3) : Prints e printed.toList := by
    rw [hChars]
    exact .binary (.negate (.group (.binary (.number hNumeral hValue) (.absolute _))))
      (.relative .up (by decide))
  have hText := hPrints ['2'] text (isNumeral_singleton (.inl rfl)) (by decide +kernel)
    (by decide +kernel)
  have hDecimal : IsNumeral ['2', '.', '0'] := by
    refine ⟨by simp, fun c hMem => ?_, by decide⟩
    simp only [List.mem_cons, List.not_mem_nil, or_false] at hMem
    rcases hMem with rfl | rfl | rfl <;> decide
  have hOther := hPrints ['2', '.', '0'] other hDecimal (by decide +kernel) (by decide +kernel)
  have hRespects : e.RespectsPrecedence := by
    simp [e, sum, RespectsPrecedence, IsBinary, IsSum, IsProduct]
  have hCount : (pieces text).length = 8 := by decide +kernel
  have hParse := hReads e text hText hRespects (by rw [hCount]; decide)
  obtain ⟨-, -, hAgain⟩ := hReadAgain text e hParse
  exact ⟨hText, hRespects, hCount, hParse, hOther, hAgain other hOther⟩

end Expr

end NoteSheet
