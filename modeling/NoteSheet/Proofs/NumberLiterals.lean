import NoteSheet.Proofs.Dependence
import NoteSheet.Proofs.ReferenceLiterals
import NoteSheet.Proofs.TitleNumbers

/-!
# Numbers in formulas and in titles

A formula and a title have readers of their own for numbers. A formula is cut into pieces first,
and a piece of digits and points has no sign and no power of ten; a title is scanned for the
longest numeral at its front, whatever comes after it. On a piece that a formula is cut into both
read the same: the piece is a lone point, which is no number to either, or it is a figure
(`IsNumeral.point_or_figure`), and then a title that is nothing else holds no longer numeral than
all of it.

Main statement: `Scope.decimals_read_alike`.
-/

namespace NoteSheet

open Title

/-! ## Numerals of formulas -/

/-- Digits and at most one point are a figure, unless there is no digit at all. -/
theorem IsNumeral.point_or_figure {cs : List Char} (h : IsNumeral cs) :
    cs = ['.'] ∨ ∃ whole part, FigureText cs whole part := by
  have hSplit := List.takeWhile_append_dropWhile (p := Char.isDigit) (l := cs)
  have hWhole : IsDigits (cs.takeWhile Char.isDigit) := fun c hMem =>
    List.all_eq_true.mp List.all_takeWhile c hMem
  generalize cs.takeWhile Char.isDigit = whole at hSplit hWhole
  cases hTail : cs.dropWhile Char.isDigit with
  | nil =>
      rw [hTail, List.append_nil] at hSplit
      subst hSplit
      exact .inr ⟨_, _, .whole h.ne_nil hWhole⟩
  | cons c part =>
      rw [hTail] at hSplit
      subst hSplit
      have hStop : c.isDigit = false := by
        have hHead := List.head?_dropWhile_not Char.isDigit (whole ++ c :: part)
        rw [hTail] at hHead
        simpa using hHead
      have hPoint : c = '.' := (h.chars c (by simp)).resolve_left (by simp [hStop])
      subst hPoint
      -- The point that ends the first digits is the only one.
      have hOnly : '.' ∉ part := by
        have hPoints := h.points
        rw [List.count_append, List.count_cons_self] at hPoints
        exact List.count_eq_zero.mp (by omega)
      have hPart : IsDigits part := fun d hMem =>
        (h.chars d (by simp [hMem])).resolve_right fun hPoint => hOnly (hPoint ▸ hMem)
      by_cases hSome : whole ≠ [] ∨ part ≠ []
      · exact .inr ⟨_, _, .of_tail hWhole hPart hSome (.inr rfl)⟩
      · obtain ⟨rfl, rfl⟩ : whole = [] ∧ part = [] := by simpa using hSome
        exact .inl rfl

namespace Title

theorem sign_of_unsigned {cs : List Char} (h : ∀ c ∈ cs.head?, c ≠ '-' ∧ c ≠ '+') :
    sign cs = (false, cs) := by
  unfold sign
  split
  case h_1 => exact absurd rfl (h _ rfl).1
  case h_2 => exact absurd rfl (h _ rfl).2
  case h_3 => rfl

/-- A sign is taken off the front of what has none. -/
theorem SignText.sign_append {sgn : List Char} {negative : Bool} (h : SignText sgn negative)
    {cs : List Char} (hRest : ∀ c ∈ cs.head?, c ≠ '-' ∧ c ≠ '+') :
    Title.sign (sgn ++ cs) = (negative, cs) := by
  cases h with
  | none => exact sign_of_unsigned hRest
  | plus => rfl
  | minus => rfl

theorem IsDigits.head_unsigned {ds : List Char} (h : IsDigits ds) :
    ∀ c ∈ ds.head?, c ≠ '-' ∧ c ≠ '+' := by
  intro c hHead
  have hDigit := h c (List.mem_of_head? hHead)
  constructor <;> rintro rfl <;> cases hDigit

/-- A power of ten is read as one, all of it. -/
theorem PowerText.scale?_eq {pow : List Char} {power : Int} (h : PowerText pow power) :
    Literal.scale? pow = some power := by
  cases h with
  | none => rfl
  | @marked mark sgn digits negative marks sign nonempty all_digits =>
      have hMark : (mark.toLower == 'e') = true := by
        rcases marks with rfl | rfl <;> rfl
      have hDigits : digits.all Char.isDigit = true := List.all_eq_true.mpr all_digits
      unfold Literal.scale?
      dsimp only
      rw [sign.sign_append all_digits.head_unsigned]
      dsimp only
      rw [if_pos (by simpa [hMark, nonempty] using hDigits)]
      rfl

/-- A figure and a power of ten are read as the decimal that they write. -/
theorem FigureText.magnitude?_eq {fig whole part pow : List Char} {power : Int}
    (h : FigureText fig whole part) (hPower : PowerText pow power) :
    Literal.magnitude? (fig ++ pow) = some (Decimal.ofParts whole part power).toFloat := by
  obtain ⟨tail, rfl, hWhole, hPart, hSome, hTail⟩ := h.exists_tail
  have hMark : ∀ c ∈ pow.head?, c.isDigit = false := by
    intro c hHead
    rcases hPower.head c hHead with rfl | rfl <;> rfl
  have hStops : ∀ c ∈ (tail ++ pow).head?, c.isDigit = false := by
    rcases hTail with ⟨rfl, -⟩ | rfl
    · exact hMark
    · rintro c ⟨⟩
      rfl
  have hFraction : fraction (tail ++ pow) = (part, pow) := by
    rcases hTail with ⟨rfl, rfl⟩ | rfl
    · cases hPower with
      | none => rfl
      | marked marks => rcases marks with rfl | rfl <;> rfl
    · obtain ⟨hTake, hDrop⟩ := takeWhile_digits hPart hMark
      exact Prod.ext hTake hDrop
  obtain ⟨hTake, hDrop⟩ := takeWhile_digits hWhole hStops
  unfold Literal.magnitude?
  rw [List.append_assoc, hTake, hDrop, hFraction]
  dsimp only
  rw [if_neg (by simpa [Decidable.imp_iff_not_or] using hSome), hPower.scale?_eq]
  rfl

theorem FigureText.head_unsigned {fig whole part : List Char} (h : FigureText fig whole part)
    (after : List Char) : ∀ c ∈ (fig ++ after).head?, c ≠ '-' ∧ c ≠ '+' := by
  cases fig with
  | nil =>
      obtain ⟨c, hMem, -⟩ := h.exists_digit
      cases hMem
  | cons c fig =>
      rintro d ⟨⟩
      constructor <;> rintro rfl <;> rcases h.mem List.mem_cons_self with hIs | hIs <;> cases hIs

/-- **Numerals are literals**: a text that is a numeral, with a sign and a power of ten or
without, has the value of the decimal that it writes. -/
theorem NumeralText.literal_number {cs : List Char} {negative : Bool} {d : Decimal}
    (h : NumeralText cs negative d) {text : String} (hText : text.toList = cs) :
    Literal.number text = signed negative d.toFloat := by
  obtain ⟨hSign, hFigure, hPower⟩ := h
  unfold Literal.number
  rw [hText, hSign.sign_append (hFigure.head_unsigned _)]
  dsimp only
  rw [hFigure.magnitude?_eq hPower]
  rfl

/-- A figure is a numeral by itself. -/
theorem FigureText.numeral {fig whole part : List Char} (h : FigureText fig whole part) :
    NumeralText fig false (Decimal.ofParts whole part 0) := by
  have hIntro := NumeralText.intro .none h .none
  rwa [List.nil_append, List.append_nil] at hIntro

/-- A figure is read in a formula as the decimal that it writes. -/
theorem FigureText.literal_number {text : String} {whole part : List Char}
    (h : FigureText text.toList whole part) :
    Literal.number text = (Decimal.ofParts whole part 0).toFloat :=
  h.numeral.literal_number rfl

end Title

/-- A figure has no blanks in front of it. -/
theorem Title.FigureText.trimmed_eq {title : String} {whole part : List Char}
    (h : FigureText title.toList whole part) : trimmed title = title.toList := by
  unfold trimmed
  cases hText : title.toList with
  | nil => rfl
  | cons c rest =>
      have hBlank : isBlank c = false := by
        rcases h.mem (hText ▸ List.mem_cons_self) with hDigit | rfl
        · exact isBlank_of_isDigit hDigit
        · decide
      rw [List.dropWhile_cons_of_neg (by simp [hBlank])]

/-- A title that is a figure is read as the decimal that it writes. -/
theorem Title.FigureText.title_number {title : String} {whole part : List Char}
    (h : FigureText title.toList whole part) :
    Title.number title = (Decimal.ofParts whole part 0).toFloat := by
  have hFinds : Finds (trimmed title) (.numeral title.toList) := by
    rw [h.trimmed_eq]
    refine .numeral ?_ (List.append_nil _).symm ⟨⟨_, _, h.numeral⟩, ?_⟩
    · rintro negative ⟨sgn, rest, -, hText⟩
      have hLetter : 'I' ∈ title.toList := by simp [hText]
      exact absurd (h.mem hLetter) (by decide)
    · intro longer hPrefix _
      rw [List.append_nil] at hPrefix
      exact hPrefix.length_le
  obtain ⟨found, -, hFound, hStands⟩ := exists_found (trimmed title)
  obtain rfl := hFinds.unique hFound
  exact hStands.unique (.numeral h.numeral)

namespace IsNumeral

variable {text : String} (h : IsNumeral text.toList)
include h

/-- **Both readers agree** on digits with at most one point. -/
theorem literal_eq_title : Literal.number text = Title.number text := by
  rcases h.point_or_figure with hPoint | ⟨whole, part, hFigure⟩
  · obtain rfl : text = "." := String.toList_inj.mp hPoint
    decide
  · rw [hFigure.literal_number, hFigure.title_number]

/-- Only a lone point is no number. -/
theorem isNaN_literal_iff : (Literal.number text).isNaN = true ↔ text = "." := by
  constructor
  · intro hNan
    rcases h.point_or_figure with hPoint | ⟨whole, part, hFigure⟩
    · exact String.toList_inj.mp hPoint
    · rw [hFigure.literal_number, Number.isNaN_iff] at hNan
      exact absurd hNan (Decimal.toFloat_ne_nan _)
  · rintro rfl
    decide

/-- A formula that is a numeral is the number of the numeral. -/
theorem parse_eq : Expr.parse text = .ok (.number (Literal.number text)) :=
  Expr.parse_of_atom (.of_numeral h .nil) (by decide) (.number rfl)

theorem evaluateText_eq (scope : Scope) :
    scope.evaluateText text = .ok (Literal.number text) := by
  rw [Scope.evaluateText_of_parse h.parse_eq]
  rfl

/-- A note with such a title is no formula. -/
theorem formula?_eq_none {item : Item} (hTitle : item.title = text) : item.formula? = none := by
  have hHead : ∀ rest, item.title.toList ≠ '=' :: rest := by
    intro rest hText
    rw [hTitle] at hText
    exact absurd (h.chars '=' (by simp [hText])) (by decide)
  unfold Item.formula?
  split
  · rename_i rest _ hText
    exact absurd hText (hHead rest)
  · rfl

end IsNumeral

/-! ## References to plain notes -/

/-- The tree of a formula that consists of a reference. -/
def Reference.expr : Reference → Expr
  | .absolute id => .absolute id
  | .relative direction steps => .relative direction steps

namespace Scope

/-- A reference to a plain note lands on the number of its title. -/
theorem target_of_plain {scope : Scope} {item : Item} {ref : Reference}
    (hItem : scope.sheet.items.get? item.id = some item) (hNote : item.kind = .note)
    (hPlain : item.formula? = none)
    (hNamed : scope.sheet.named? scope.filter scope.origin ref = some item.id) :
    scope.target ref = .ok (.number (Title.number item.title)) := by
  have hNoFormula : scope.sheet.items.formulaNote? item.id = none := by
    apply ItemStore.formulaNote?_eq_none
    rw [hItem, Option.bind_some, hPlain]
  have hValue : plainValue? item = some (Title.number item.title) := by
    unfold plainValue?
    rw [hNote]
  cases ref with
  | absolute id =>
      obtain rfl := Option.some.inj hNamed
      unfold target absoluteTarget
      dsimp only
      rw [hItem, hNoFormula]
      dsimp only
      rw [hValue]
  | relative direction steps =>
      obtain ⟨element, hLanding, hShown⟩ := Option.map_eq_some_iff.mp hNamed
      obtain ⟨path, hHop, hElement⟩ := Option.bind_eq_some_iff.mp hLanding
      unfold target relativeTarget
      dsimp only
      rw [hHop]
      dsimp only
      rw [hElement]
      dsimp only
      rw [hShown, hNoFormula, hItem, Option.bind_some, hValue]
      rfl

/-- A formula that consists of a reference to a plain note has the number of its title. -/
theorem evaluateText_of_plain {scope : Scope} {item : Item} {ref : Reference} {formula : String}
    (hItem : scope.sheet.items.get? item.id = some item) (hNote : item.kind = .note)
    (hPlain : item.formula? = none)
    (hNamed : scope.sheet.named? scope.filter scope.origin ref = some item.id)
    (hParse : Expr.parse formula = .ok ref.expr) :
    scope.evaluateText formula = .ok (Title.number item.title) := by
  have hRead : scope.readReference ref = .ok (Title.number item.title) := by
    rw [readReference_eq, target_of_plain hItem hNote hPlain hNamed]
    exact congrArg Except.ok (read_number scope _)
  have hExpr : scope.evaluate ref.expr = scope.readReference ref := by
    cases ref <;> rfl
  rw [evaluateText_of_parse hParse, hExpr, hRead]
  rfl

/-- **A decimal means the same in a formula and in a title.** Whatever a text is, the literal of
each of its number tokens is read by the parser as it is read as a title, and it is no number
only where it is a lone point. So a formula that consists of such a literal has the value of one
that consists of a reference to a plain note with the literal for its title. -/
theorem decimals_read_alike (text : String) :
    ∀ token ∈ tokenize text, token.kind = .number →
      Literal.number token.literal = Title.number token.literal ∧
      ((Literal.number token.literal).isNaN = true ↔ token.literal = ".") ∧
      ∀ scope : Scope, scope.evaluateText token.literal = .ok (Literal.number token.literal) ∧
        ∀ (item : Item) (ref : Reference) (formula : String),
          scope.sheet.items.get? item.id = some item → item.kind = .note →
          item.title = token.literal →
          scope.sheet.named? scope.filter scope.origin ref = some item.id →
          Expr.parse formula = .ok ref.expr →
            scope.evaluateText formula = .ok (Literal.number token.literal) := by
  intro token hMem hKind
  have hNumeral : IsNumeral token.literal.toList := by
    rw [tokenize_eq, List.mem_append, List.mem_singleton] at hMem
    rcases hMem with hMem | rfl
    · exact isNumeral_of_mem_pieces hMem hKind
    · cases hKind
  refine ⟨hNumeral.literal_eq_title, hNumeral.isNaN_literal_iff, fun scope =>
    ⟨hNumeral.evaluateText_eq scope, ?_⟩⟩
  intro item ref formula hItem hNote hTitle hNamed hParse
  have hPlain : item.formula? = none := hNumeral.formula?_eq_none hTitle
  rw [evaluateText_of_plain hItem hNote hPlain hNamed hParse, hTitle, hNumeral.literal_eq_title]

/-- A second point begins a number of its own. A note has that number for its title, and the
cell below refers to it. -/
theorem decimals_read_alike_column :
    let scope := (Sheet.column [".50", "=$U1"]).scope .anything (Sheet.columnPath 1)
    tokenize "2.5.50" = [⟨.number, "2.5", 0⟩, ⟨.number, ".50", 3⟩, .endAt 6] ∧
      Literal.number ".50" = Title.number ".50" ∧ Literal.number ".50" = 0.5 ∧
      scope.evaluateText ".50" = .ok 0.5 ∧ scope.evaluateText "$U1" = .ok 0.5 := by
  intro scope
  have hTokens : tokenize "2.5.50" = [⟨.number, "2.5", 0⟩, ⟨.number, ".50", 3⟩, .endAt 6] := by
    decide +kernel
  have hHalf : Literal.number ".50" = 0.5 := by decide +kernel
  let item : Item := { id := Uid.ofNat 1, kind := .note, title := ".50" }
  have hItem : scope.sheet.items.get? item.id = some item := by decide +kernel
  have hNamed : scope.sheet.named? scope.filter scope.origin (.relative .up 1) =
      some item.id := by
    decide +kernel
  have hParse : Expr.parse "$U1" = .ok (Reference.relative .up 1).expr := by decide +kernel
  obtain ⟨hSame, -, hValues⟩ := decimals_read_alike "2.5.50" ⟨.number, ".50", 3⟩
    (by simp [hTokens]) rfl
  obtain ⟨hFormula, hReference⟩ := hValues scope
  rw [hHalf] at hFormula hReference
  exact ⟨hTokens, hSame, hHalf, hFormula, hReference item _ _ hItem rfl rfl hNamed hParse⟩

end Scope

end NoteSheet
