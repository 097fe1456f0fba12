import Mathlib.Data.List.TakeWhile
import NoteSheet.Decimal
import NoteSheet.Proofs.Pieces

/-!
# The grammar of numerals

A numeral is a sign, a figure and a power of ten, one behind the other:

    [+-]? (D+ ('.' D*)? | '.' D+) ([eE] [+-]? D+)?

Each part comes with what it says, and so a numeral with the decimal that it writes. No part
begins with a character of the part before it (`Apart`). That is why a numeral can be read in
one way only, and why the longest numeral at the front of a text is the longest sign, the
longest figure behind it and the longest power of ten behind that: none of the three gains by
leaving characters to the next.

Main statements: `NumeralText.unique`, `Longest.behind` (longest parts make a longest whole),
`longest_isDecimal` and `not_isDecimal_of_not_isFigure`.
-/

namespace NoteSheet

/-! ## Texts one behind the other -/

/-- A text of one kind with one of another kind behind it. -/
def Behind (P Q : List Char → Prop) (cs : List Char) : Prop := ∃ p q, P p ∧ Q q ∧ cs = p ++ q

/-- The character that begins the second text is nowhere in the first. -/
def Apart (p q : List Char) : Prop := ∀ c ∈ q.head?, c ∉ p

/-- A text of two parts that are apart comes apart in one way only. -/
theorem append_unique {p q p' q' : List Char} (hText : p ++ q = p' ++ q') (hApart : Apart p' q)
    (hApart' : Apart p q') : p = p' ∧ q = q' := by
  rcases List.append_eq_append_iff.mp hText with ⟨more, rfl, rfl⟩ | ⟨more, rfl, rfl⟩
  · cases more with
    | nil => simp
    | cons c more => exact absurd (by simp) (hApart c rfl)
  · cases more with
    | nil => simp
    | cons c more => exact absurd (by simp) (hApart' c rfl)

namespace Longest

variable {P Q : List Char → Prop} {span after front : List Char}

/-- Every other prefix with the property is a prefix of the longest. -/
theorem isPrefix (h : Longest P span after) (hFront : front <+: span ++ after) (hP : P front) :
    front <+: span :=
  List.prefix_of_prefix_length_le hFront (List.prefix_append span after) (h.longest front hFront hP)

/-- The longest prefix stays the longest among fewer texts, as long as it is one of them. -/
theorem mono (h : Longest P span after) (hSpan : Q span) (hLess : ∀ cs, Q cs → P cs) :
    Longest Q span after where
  holds := hSpan
  longest longer hPrefix hLonger := h.longest longer hPrefix (hLess longer hLonger)

/-- A text of two parts is cut where the longest of the first kind ends, unless there is no
second part. -/
theorem cut {p q : List Char} (h : Longest P span after) (hPrefix : p ++ q <+: span ++ after)
    (hP : P p) (hApart : Apart span q) : p = span ∧ q <+: after ∨ q = [] := by
  obtain ⟨missing, rfl⟩ := h.isPrefix ((List.prefix_append p q).trans hPrefix) hP
  rw [List.append_assoc, List.prefix_append_right_inj] at hPrefix
  cases missing with
  | nil => exact .inl ⟨(List.append_nil p).symm, hPrefix⟩
  | cons c missing =>
      cases q with
      | nil => exact .inr rfl
      | cons d q =>
          obtain ⟨rfl, -⟩ := List.cons_prefix_cons.mp hPrefix
          exact absurd (by simp) (hApart d rfl)

/-- The longest text of one kind, with the longest of another kind behind it, is the longest of
the two together, if it is apart from all of the other kind. -/
theorem behind {more : List Char} (h : Longest P span (more ++ after)) (h' : Longest Q more after)
    (hApart : ∀ q, Q q → Apart span q) : Longest (Behind P Q) (span ++ more) after where
  holds := ⟨span, more, h.holds, h'.holds, rfl⟩
  longest := by
    rintro _ hPrefix ⟨p, q, hP, hQ, rfl⟩
    rw [List.append_assoc] at hPrefix
    rw [List.length_append, List.length_append]
    rcases h.cut hPrefix hP (hApart q hQ) with ⟨rfl, hMore⟩ | rfl
    · exact Nat.add_le_add_left (h'.longest q hMore hQ) _
    · have hLe := h.longest p (by simpa using hPrefix) hP
      simp only [List.length_nil]
      omega

/-- The characters that pass, up to the first that does not, are the longest text of such. -/
theorem takeWhile (test : Char → Bool) (cs : List Char) :
    Longest (fun ds => ∀ c ∈ ds, test c = true) (cs.takeWhile test) (cs.dropWhile test) := by
  refine .of_stops (fun c => List.mem_takeWhile_imp) ?_ ?_
  · exact fun front back _ hAll c hMem => hAll c (List.mem_append_left back hMem)
  · intro c rest hRest hAll
    have hStop := List.head?_dropWhile_not test cs
    rw [hRest] at hStop
    have hPass := hAll c (by simp)
    exact Bool.false_ne_true (hStop.symm.trans hPass)

end Longest

namespace Title

/-! ## The grammar -/

/-- What a sign makes of the value behind it. -/
def signed {α : Type} [Neg α] (negative : Bool) (x : α) : α := if negative then -x else x

/-- An optional sign, and whether it is a minus. -/
inductive SignText : List Char → Bool → Prop
  | none : SignText [] false
  | plus : SignText ['+'] false
  | minus : SignText ['-'] true

/-- Digits, or none. -/
def IsDigits (cs : List Char) : Prop := ∀ c ∈ cs, c.isDigit = true

/-- Digits with an optional point among them, and the digits before and after it. Digits may be
missing before the point or after it, but not both. -/
inductive FigureText : List Char → List Char → List Char → Prop
  | whole {whole : List Char} (nonempty : whole ≠ []) (digits : IsDigits whole) :
      FigureText whole whole []
  | pointed {whole part : List Char} (nonempty : whole ≠ []) (digits : IsDigits whole)
      (part_digits : IsDigits part) : FigureText (whole ++ '.' :: part) whole part
  | bare {part : List Char} (nonempty : part ≠ []) (part_digits : IsDigits part) :
      FigureText ('.' :: part) [] part

/-- An optional power of ten: a mark, an optional sign and digits. -/
inductive PowerText : List Char → Int → Prop
  | none : PowerText [] 0
  | marked {mark : Char} {sgn digits : List Char} {negative : Bool}
      (marks : mark = 'e' ∨ mark = 'E') (sign : SignText sgn negative) (nonempty : digits ≠ [])
      (all_digits : IsDigits digits) :
      PowerText (mark :: (sgn ++ digits)) (signed negative (Decimal.ofDigits digits : Int))

/-- A numeral: a sign, a figure and a power of ten; and the decimal that it writes. -/
inductive NumeralText : List Char → Bool → Decimal → Prop
  | intro {sgn fig pow whole part : List Char} {negative : Bool} {power : Int}
      (sign : SignText sgn negative) (figure : FigureText fig whole part)
      (scaled : PowerText pow power) :
      NumeralText (sgn ++ (fig ++ pow)) negative (Decimal.ofParts whole part power)

def IsSign (cs : List Char) : Prop := ∃ negative, SignText cs negative

def IsFigure (cs : List Char) : Prop := ∃ whole part, FigureText cs whole part

def IsPower (cs : List Char) : Prop := ∃ power, PowerText cs power

/-- A text of the form `[+-]? (D+ ('.' D*)? | '.' D+) ([eE] [+-]? D+)?`. -/
def IsDecimal (cs : List Char) : Prop := ∃ negative d, NumeralText cs negative d

theorem isDecimal_iff {cs : List Char} :
    IsDecimal cs ↔ Behind IsSign (Behind IsFigure IsPower) cs := by
  constructor
  · rintro ⟨negative, d, hText⟩
    obtain ⟨hSgn, hFig, hPow⟩ := hText
    exact ⟨_, _, ⟨_, hSgn⟩, ⟨_, _, ⟨_, _, hFig⟩, ⟨_, hPow⟩, rfl⟩, rfl⟩
  · rintro ⟨_, _, ⟨_, hSgn⟩, ⟨_, _, ⟨_, _, hFig⟩, ⟨_, hPow⟩, rfl⟩, rfl⟩
    exact ⟨_, _, .intro hSgn hFig hPow⟩

/-! ### One reading -/

theorem IsDigits.point_not_mem {ds : List Char} (h : IsDigits ds) : '.' ∉ ds := fun hMem =>
  absurd (h '.' hMem) (by decide)

theorem SignText.mem {sgn : List Char} {negative : Bool} (h : SignText sgn negative) {c : Char}
    (hMem : c ∈ sgn) : c = '+' ∨ c = '-' := by
  cases h <;> simp_all

theorem SignText.isDigit_eq_false {sgn : List Char} {negative : Bool} (h : SignText sgn negative)
    {c : Char} (hMem : c ∈ sgn) : c.isDigit = false := by
  rcases h.mem hMem with rfl | rfl <;> rfl

theorem SignText.unique {sgn : List Char} {negative negative' : Bool} (h : SignText sgn negative)
    (h' : SignText sgn negative') : negative = negative' := by
  cases h <;> cases h' <;> rfl

/-- Digits, and behind them a point and digits if there is a point, are a figure unless there is
no digit at all. -/
theorem FigureText.of_tail {whole part tail : List Char} (hWhole : IsDigits whole)
    (hPart : IsDigits part) (hSome : whole ≠ [] ∨ part ≠ [])
    (hTail : tail = [] ∧ part = [] ∨ tail = '.' :: part) :
    FigureText (whole ++ tail) whole part := by
  rcases hTail with ⟨rfl, rfl⟩ | rfl
  · rw [List.append_nil]
    exact .whole (hSome.resolve_right (absurd rfl)) hWhole
  · cases whole with
    | nil => exact .bare (hSome.resolve_left (absurd rfl)) hPart
    | cons c whole => exact .pointed (by simp) hWhole hPart

section Figure

variable {fig whole part : List Char} (h : FigureText fig whole part)
include h

/-- Every figure is made so. -/
theorem FigureText.exists_tail : ∃ tail, fig = whole ++ tail ∧ IsDigits whole ∧ IsDigits part ∧
    (whole ≠ [] ∨ part ≠ []) ∧ (tail = [] ∧ part = [] ∨ tail = '.' :: part) := by
  cases h with
  | whole nonempty digits =>
      exact ⟨[], by simp, digits, nofun, .inl nonempty, .inl ⟨rfl, rfl⟩⟩
  | pointed nonempty digits part_digits =>
      exact ⟨_, rfl, digits, part_digits, .inl nonempty, .inr rfl⟩
  | bare nonempty part_digits =>
      exact ⟨_, rfl, nofun, part_digits, .inr nonempty, .inr rfl⟩

theorem FigureText.mem {c : Char} (hMem : c ∈ fig) : c.isDigit = true ∨ c = '.' := by
  obtain ⟨tail, rfl, hWhole, hPart, -, hTail⟩ := h.exists_tail
  rcases List.mem_append.mp hMem with hMem | hMem
  · exact .inl (hWhole c hMem)
  · rcases hTail with ⟨rfl, -⟩ | rfl
    · cases hMem
    · exact (List.mem_cons.mp hMem).symm.imp_left (hPart c)

theorem FigureText.exists_digit : ∃ c ∈ fig, c.isDigit = true := by
  obtain ⟨tail, rfl, hWhole, hPart, hSome | hSome, hTail⟩ := h.exists_tail
  · obtain ⟨c, hMem⟩ := List.exists_mem_of_ne_nil whole hSome
    exact ⟨c, List.mem_append_left _ hMem, hWhole c hMem⟩
  · obtain ⟨c, hMem⟩ := List.exists_mem_of_ne_nil part hSome
    rcases hTail with ⟨-, rfl⟩ | rfl
    · cases hMem
    · exact ⟨c, by simp [hMem], hPart c hMem⟩

theorem FigureText.unique {whole' part' : List Char} (h' : FigureText fig whole' part') :
    whole = whole' ∧ part = part' := by
  obtain ⟨tail, hFig, hWhole, -, -, hTail⟩ := h.exists_tail
  obtain ⟨tail', hFig', hWhole', -, -, hTail'⟩ := h'.exists_tail
  have hPoint {tail part : List Char} (hTail : tail = [] ∧ part = [] ∨ tail = '.' :: part) :
      ∀ c ∈ tail.head?, c = '.' := by
    rcases hTail with ⟨rfl, -⟩ | rfl
    · nofun
    · rintro c ⟨⟩
      rfl
  obtain ⟨rfl, rfl⟩ := append_unique (hFig.symm.trans hFig')
    (fun c hHead => hPoint hTail c hHead ▸ hWhole'.point_not_mem)
    (fun c hHead => hPoint hTail' c hHead ▸ hWhole.point_not_mem)
  refine ⟨rfl, ?_⟩
  rcases hTail with ⟨rfl, rfl⟩ | rfl
  · rcases hTail' with ⟨-, rfl⟩ | hTail'
    · rfl
    · cases hTail'
  · rcases hTail' with ⟨hTail', -⟩ | hTail'
    · cases hTail'
    · exact (List.cons.inj hTail').2

end Figure

theorem SignText.apart_digits {sgn ds : List Char} {negative : Bool} (h : SignText sgn negative)
    (hDigits : IsDigits ds) : Apart sgn ds := fun c hHead hMem =>
  Bool.false_ne_true ((h.isDigit_eq_false hMem).symm.trans (hDigits c (List.mem_of_head? hHead)))

theorem PowerText.head {pow : List Char} {power : Int} (h : PowerText pow power) :
    ∀ c ∈ pow.head?, c = 'e' ∨ c = 'E' := by
  cases h with
  | none => nofun
  | marked marks =>
      rintro c ⟨⟩
      exact marks

theorem PowerText.unique {pow pow' : List Char} {power power' : Int} (h : PowerText pow power)
    (h' : PowerText pow' power') (hText : pow = pow') : power = power' := by
  cases h with
  | none =>
      cases h' with
      | none => rfl
      | marked => cases hText
  | marked _ hSgn _ hDigits =>
      cases h' with
      | none => cases hText
      | marked _ hSgn' _ hDigits' =>
          obtain ⟨rfl, rfl⟩ := append_unique (List.cons.inj hText).2 (hSgn'.apart_digits hDigits)
            (hSgn.apart_digits hDigits')
          rw [hSgn.unique hSgn']

theorem FigureText.apart_power {fig whole part pow : List Char} {power : Int}
    (h : FigureText fig whole part) (hPow : PowerText pow power) : Apart fig pow := by
  intro c hHead hMem
  rcases hPow.head c hHead with rfl | rfl <;> rcases h.mem hMem with hDigit | hPoint <;>
    simp_all

theorem SignText.apart_figure {sgn fig whole part : List Char} {negative : Bool}
    (h : SignText sgn negative) (hFig : FigureText fig whole part) (pow : List Char) :
    Apart sgn (fig ++ pow) := by
  cases fig with
  | nil =>
      obtain ⟨c, hMem, -⟩ := hFig.exists_digit
      cases hMem
  | cons c fig =>
      rintro d ⟨⟩ hMem
      rcases hFig.mem List.mem_cons_self with hDigit | rfl
      · exact Bool.false_ne_true ((h.isDigit_eq_false hMem).symm.trans hDigit)
      · rcases h.mem hMem with hPoint | hPoint <;> cases hPoint

/-- A numeral writes one decimal. -/
theorem NumeralText.unique {text text' : List Char} {negative negative' : Bool} {d d' : Decimal}
    (h : NumeralText text negative d) (h' : NumeralText text' negative' d')
    (hText : text = text') : negative = negative' ∧ d = d' := by
  obtain ⟨hSgn, hFig, hPow⟩ := h
  obtain ⟨hSgn', hFig', hPow'⟩ := h'
  obtain ⟨rfl, hRest⟩ := append_unique hText (hSgn'.apart_figure hFig _)
    (hSgn.apart_figure hFig' _)
  obtain ⟨rfl, rfl⟩ := append_unique hRest (hFig'.apart_power hPow) (hFig.apart_power hPow')
  obtain ⟨rfl, rfl⟩ := hFig.unique hFig'
  exact ⟨hSgn.unique hSgn', by rw [hPow.unique hPow' rfl]⟩

/-! ## The longest numeral -/

/-- A point, if there is one, and the digits behind it. -/
def IsFraction (cs : List Char) : Prop := cs = [] ∨ ∃ ds, cs = '.' :: ds ∧ IsDigits ds

theorem longest_digits (cs : List Char) :
    Longest IsDigits (cs.takeWhile Char.isDigit) (cs.dropWhile Char.isDigit) :=
  .takeWhile Char.isDigit cs

theorem IsFigure.behind {cs : List Char} (h : IsFigure cs) : Behind IsDigits IsFraction cs := by
  obtain ⟨whole, part, hFig⟩ := h
  obtain ⟨tail, rfl, hWhole, hPart, -, ⟨rfl, -⟩ | rfl⟩ := hFig.exists_tail
  · exact ⟨_, _, hWhole, .inl rfl, rfl⟩
  · exact ⟨_, _, hWhole, .inr ⟨part, rfl, hPart⟩, rfl⟩

/-- The mark of a power of ten. -/
def IsMark (cs : List Char) : Prop := ∃ mark, cs = [mark] ∧ (mark = 'e' ∨ mark = 'E')

theorem IsPower.behind {cs : List Char} (h : IsPower cs) (hSome : cs ≠ []) :
    Behind IsMark (Behind IsSign IsDigits) cs ∧ ∃ c ∈ cs, c.isDigit = true := by
  obtain ⟨power, hPow⟩ := h
  cases hPow with
  | none => exact absurd rfl hSome
  | marked hMark hSgn hDigit hDigits =>
      obtain ⟨c, hMem⟩ := List.exists_mem_of_ne_nil _ hDigit
      exact ⟨⟨_, _, ⟨_, rfl, hMark⟩, ⟨_, _, ⟨_, hSgn⟩, hDigits, rfl⟩, rfl⟩,
        c, by simp [hMem], hDigits c hMem⟩

section Marked

variable {mark : Char} {sgn ds after : List Char} (hMark : mark = 'e' ∨ mark = 'E')
include hMark

/-- The longest sign behind a mark and the longest digits behind that. -/
theorem longest_marked (hSign : Longest IsSign sgn (ds ++ after))
    (hDigits : Longest IsDigits ds after) :
    Longest (Behind IsMark (Behind IsSign IsDigits)) ([mark] ++ (sgn ++ ds)) after := by
  have hOne : Longest IsMark [mark] (sgn ++ ds ++ after) := by
    refine ⟨⟨mark, rfl, hMark⟩, ?_⟩
    rintro _ - ⟨other, rfl, -⟩
    exact Nat.le_refl _
  obtain ⟨negative, hSgn⟩ := hSign.holds
  refine hOne.behind (hSign.behind hDigits fun q hQ => hSgn.apart_digits hQ) ?_
  rintro _ ⟨sgn', ds', ⟨negative', hSgn'⟩, hDigits', rfl⟩ c hHead hMem
  obtain rfl := List.mem_singleton.mp hMem
  rcases List.mem_append.mp (List.mem_of_head? hHead) with hMem | hMem
  · rcases hSgn'.mem hMem with rfl | rfl <;> rcases hMark with hMark | hMark <;> cases hMark
  · have hDigit := hDigits' c hMem
    rcases hMark with rfl | rfl <;> cases hDigit

theorem longest_power_of_digits (hSign : Longest IsSign sgn (ds ++ after))
    (hDigits : Longest IsDigits ds after) (hSome : ds ≠ []) :
    Longest IsPower (mark :: (sgn ++ ds)) after := by
  obtain ⟨negative, hSgn⟩ := hSign.holds
  have hAll := longest_marked hMark hSign hDigits
  refine ⟨⟨_, .marked hMark hSgn hSome hDigits.holds⟩, fun longer hPrefix hLonger => ?_⟩
  cases longer with
  | nil => exact Nat.zero_le _
  | cons c longer => exact hAll.longest _ hPrefix (hLonger.behind (by simp)).1

/-- A mark and a sign without a digit behind them begin no power of ten. -/
theorem longest_power_of_no_digits (hSign : Longest IsSign sgn after)
    (hNone : Longest IsDigits [] after) : Longest IsPower [] (mark :: (sgn ++ after)) := by
  obtain ⟨negative, hSgn⟩ := hSign.holds
  have hAll := longest_marked hMark hSign hNone
  rw [List.append_nil] at hAll
  refine ⟨⟨0, .none⟩, fun longer hPrefix hLonger => ?_⟩
  cases longer with
  | nil => exact Nat.le_refl _
  | cons c longer =>
      -- any power of ten here would be a part of the mark and the sign, and has a digit
      obtain ⟨hBehind, d, hMem, hDigit⟩ := hLonger.behind (by simp)
      have hMem := (hAll.isPrefix hPrefix hBehind).subset hMem
      rcases List.mem_cons.mp hMem with rfl | hMem
      · rcases hMark with rfl | rfl <;> cases hDigit
      · exact absurd (hDigit.symm.trans (hSgn.isDigit_eq_false hMem)) (by simp)

end Marked

/-- The longest numeral is the longest sign, the longest figure and the longest power of ten. -/
theorem longest_isDecimal {sgn fig pow after : List Char}
    (hSign : Longest IsSign sgn (fig ++ pow ++ after))
    (hFigure : Longest IsFigure fig (pow ++ after)) (hPower : Longest IsPower pow after) :
    Longest IsDecimal (sgn ++ (fig ++ pow)) after := by
  obtain ⟨negative, hSgn⟩ := hSign.holds
  obtain ⟨whole, part, hFig⟩ := hFigure.holds
  have hUnsigned : Longest (Behind IsFigure IsPower) (fig ++ pow) after := by
    refine hFigure.behind hPower ?_
    rintro pow' ⟨power, hPow⟩
    exact hFig.apart_power hPow
  have hAll : Longest (Behind IsSign (Behind IsFigure IsPower)) (sgn ++ (fig ++ pow)) after := by
    refine hSign.behind hUnsigned ?_
    rintro _ ⟨fig', pow', ⟨_, _, hFig'⟩, -, rfl⟩
    exact hSgn.apart_figure hFig' pow'
  exact hAll.mono (isDecimal_iff.mpr hAll.holds) fun cs => isDecimal_iff.mp

/-- Without a figure behind the sign there is no numeral. -/
theorem not_isDecimal_of_not_isFigure {sgn rest : List Char} (hSign : Longest IsSign sgn rest)
    (hNone : ∀ front, front <+: rest → ¬ IsFigure front) :
    ∀ front, front <+: sgn ++ rest → ¬ IsDecimal front := by
  obtain ⟨negative, hSgn⟩ := hSign.holds
  intro front hPrefix hDecimal
  obtain ⟨sgn', _, hSign', ⟨fig, pow, ⟨whole, part, hFig⟩, -, rfl⟩, rfl⟩ :=
    isDecimal_iff.mp hDecimal
  rcases hSign.cut hPrefix hSign' (hSgn.apart_figure hFig pow) with ⟨-, hRest⟩ | hNil
  · exact hNone fig ((List.prefix_append fig pow).trans hRest) ⟨whole, part, hFig⟩
  · obtain ⟨c, hMem, -⟩ := hFig.exists_digit
    rw [(List.append_eq_nil_iff.mp hNil).1] at hMem
    cases hMem

end Title

end NoteSheet
