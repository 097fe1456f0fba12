import NoteSheet.Proofs.Dependence

/-!
# How formulas fail

A formula fails through its absolute references alone. Operands are read from left to right and
the first failure ends the reading, so that the failure of an expression is that of the first of
its references that fails (`Expr.fault?_evaluate`). Whether a reference fails is a matter of what
is stored under its identifier and of whether that is laid out (`Sheet.Faulty`), and not of any
number that is read: what goes wrong inside another formula stays there, as does a circle.

Main statement: `evaluate_fails_leftmost`.
-/

namespace NoteSheet

/-! ## The first failure -/

section Faults

variable {ε α β : Type}

/-- The failure of a result. -/
def fault? : Except ε α → Option ε
  | .ok _ => none
  | .error fault => some fault

theorem fault?_eq_some_iff {result : Except ε α} {fault : ε} :
    fault? result = some fault ↔ result = .error fault := by
  cases result <;> simp [fault?]

theorem fault?_map (f : α → β) (result : Except ε α) : fault? (result.map f) = fault? result := by
  cases result <;> rfl

theorem fault?_mapError {δ : Type} (f : ε → δ) (result : Except ε α) :
    fault? (result.mapError f) = (fault? result).map f := by
  cases result <;> rfl

end Faults

/-- **First failure**: an expression fails as the first of its references that fails. -/
theorem Expr.fault?_evaluate (absolute : Uid → Except ReferenceError Float)
    (relative : Direction → Nat → Float) (expr : Expr) :
    fault? (expr.evaluate absolute relative) =
      expr.references.findSome? fun ref => fault? (ref.read absolute relative) := by
  induction expr with
  | number value => rfl
  | absolute id =>
      rw [references, List.findSome?_singleton]
      rfl
  | relative direction steps => rfl
  | group inner ih => exact ih
  | negate operand ih =>
      rw [evaluate_negate, fault?_map]
      exact ih
  | binary operator left right ihLeft ihRight =>
      rw [references, List.findSome?_append, ← ihLeft, ← ihRight]
      show fault? (do
        let x ← left.evaluate absolute relative
        let y ← right.evaluate absolute relative
        return operator.apply x y) = _
      cases left.evaluate absolute relative with
      | error fault => rfl
      | ok x => cases right.evaluate absolute relative <;> rfl

/-! ## Absolute references that fail -/

/-- A formula is a note. -/
theorem Item.kind_of_isFormula {item : Item} (h : item.isFormula = true) : item.kind = .note := by
  unfold isFormula formula? at h
  split at h
  · assumption
  · cases h

theorem Item.formula?_eq_none {item : Item} (hNote : item.kind ≠ .note) : item.formula? = none :=
  Option.not_isSome_iff_eq_none.mp fun hFormula => hNote (kind_of_isFormula hFormula)

/-- Only notes and ratings can be read. -/
theorem Scope.plainValue?_eq_none {item : Item} (hNote : item.kind ≠ .note)
    (hRating : item.kind ≠ .rating) : plainValue? item = none := by
  unfold plainValue?
  cases hKind : item.kind <;> first | rfl | contradiction

namespace Sheet

/-- What is wrong with an absolute reference to an identifier. -/
inductive Faulty (sheet : Sheet) (id : Uid) : ReferenceError → Prop
  /-- No item is stored under the identifier. -/
  | missing (hItem : sheet.items.get? id = none) : Faulty sheet id (.missing id)
  /-- The item is neither a note nor a rating. -/
  | notReadable {item : Item} (hItem : sheet.items.get? id = some item) (hNote : item.kind ≠ .note)
      (hRating : item.kind ≠ .rating) : Faulty sheet id (.notReadable id item.kind)
  /-- The item is a formula note, and no element shows it. -/
  | notLaidOut {item : Item} (hItem : sheet.items.get? id = some item)
      (hFormula : item.isFormula = true)
      (hNowhere : ∀ element ∈ sheet.layout.elements.toList, element.item ≠ id) :
      Faulty sheet id (.notLaidOut id)

end Sheet

namespace Scope

variable {scope : Scope} {id : Uid} {fault : ReferenceError}

theorem faulty_of_absoluteTarget (h : scope.absoluteTarget id = .error fault) :
    scope.sheet.Faulty id fault := by
  unfold absoluteTarget at h
  split at h
  · rename_i hItem
    cases h
    exact .missing hItem
  · rename_i item hItem
    split at h
    · rename_i note hNote
      split at h
      · cases h
      · rename_i hNowhere
        cases h
        have hStored := ItemStore.stored_of_formulaNote? hNote
        refine .notLaidOut hStored (by simp [Item.isFormula, note.formula]) ?_
        intro element hMem hShown
        simpa [hShown] using List.find?_eq_none.mp hNowhere element hMem
    · split at h
      · cases h
      · rename_i hValue
        cases h
        have hKinds : item.kind ≠ .note ∧ item.kind ≠ .rating := by
          unfold plainValue? at hValue
          constructor <;> rintro hKind <;> rw [hKind] at hValue <;> cases hValue
        exact .notReadable hItem hKinds.1 hKinds.2

theorem absoluteTarget_of_faulty (h : scope.sheet.Faulty id fault) :
    scope.absoluteTarget id = .error fault := by
  unfold absoluteTarget
  cases h with
  | missing hItem => rw [hItem]
  | @notReadable item hItem hNote hRating =>
      have hPlain : scope.sheet.items.formulaNote? id = none := by
        apply ItemStore.formulaNote?_eq_none
        rw [hItem, Option.bind_some]
        exact Item.formula?_eq_none hNote
      rw [hItem, hPlain]
      dsimp only
      rw [plainValue?_eq_none hNote hRating]
  | @notLaidOut item hItem hFormula hNowhere =>
      obtain ⟨text, hText⟩ := Option.isSome_iff_exists.mp hFormula
      obtain ⟨note, hNote, -⟩ := ItemStore.exists_formulaNote? hItem hText
      have hNone : scope.sheet.layout.elementFor? id = none := by
        apply List.find?_eq_none.mpr
        intro element hMem
        simpa using hNowhere element hMem
      rw [hItem, hNote]
      dsimp only
      rw [hNone]

/-- An absolute reference fails for the faults of its identifier, and a relative one never. -/
theorem fault?_readReference_eq_some_iff {ref : Reference} :
    fault? (scope.readReference ref) = some fault ↔
      ∃ id, ref = .absolute id ∧ scope.sheet.Faulty id fault := by
  cases ref with
  | absolute id =>
      rw [readReference_eq, fault?_map, fault?_eq_some_iff]
      constructor
      · intro h
        exact ⟨id, rfl, faulty_of_absoluteTarget h⟩
      · rintro ⟨_, ⟨⟩, hFaulty⟩
        exact absoluteTarget_of_faulty hFaulty
  | relative direction steps =>
      rw [readReference_eq]
      exact ⟨nofun, fun ⟨_, hRef, _⟩ => nomatch hRef⟩

end Scope

/-! ## Expressions that fail -/

/-- The leftmost absolute reference of an expression that is faulty has this fault. -/
def Sheet.FirstFault (sheet : Sheet) (expr : Expr) (fault : ReferenceError) : Prop :=
  ∃ before id after, expr.references = before ++ .absolute id :: after ∧
    (∀ earlier other, .absolute earlier ∈ before → ¬ sheet.Faulty earlier other) ∧
    sheet.Faulty id fault

namespace Scope

variable {scope : Scope} {expr : Expr} {fault : ReferenceError}

theorem fault?_evaluate (scope : Scope) (expr : Expr) :
    fault? (scope.evaluate expr) =
      expr.references.findSome? fun ref => fault? (scope.readReference ref) :=
  expr.fault?_evaluate scope.readAbsolute scope.readRelative

theorem evaluate_eq_error_iff :
    scope.evaluate expr = .error fault ↔ scope.sheet.FirstFault expr fault := by
  rw [← fault?_eq_some_iff, fault?_evaluate, List.findSome?_eq_some_iff]
  constructor
  · rintro ⟨before, ref, after, hRefs, hFault, hBefore⟩
    obtain ⟨id, rfl, hFaulty⟩ := fault?_readReference_eq_some_iff.mp hFault
    refine ⟨before, id, after, hRefs, ?_, hFaulty⟩
    intro earlier other hMem hOther
    have hNone := hBefore (.absolute earlier) hMem
    rw [fault?_readReference_eq_some_iff.mpr ⟨earlier, rfl, hOther⟩] at hNone
    cases hNone
  · rintro ⟨before, id, after, hRefs, hBefore, hFaulty⟩
    refine ⟨before, .absolute id, after, hRefs,
      fault?_readReference_eq_some_iff.mpr ⟨id, rfl, hFaulty⟩, ?_⟩
    intro ref hMem
    cases hFault : fault? (scope.readReference ref) with
    | none => rfl
    | some other =>
        obtain ⟨earlier, rfl, hOther⟩ := fault?_readReference_eq_some_iff.mp hFault
        exact absurd hOther (hBefore earlier other hMem)

/-- Any faulty reference makes an expression fail. -/
theorem exists_evaluate_eq_error_iff :
    (∃ fault, scope.evaluate expr = .error fault) ↔
      ∃ id fault, .absolute id ∈ expr.references ∧ scope.sheet.Faulty id fault := by
  simp only [← fault?_eq_some_iff]
  rw [← Option.isSome_iff_exists, fault?_evaluate, List.findSome?_isSome_iff]
  constructor
  · rintro ⟨ref, hMem, hFault⟩
    obtain ⟨fault, hFault⟩ := Option.isSome_iff_exists.mp hFault
    obtain ⟨id, rfl, hFaulty⟩ := fault?_readReference_eq_some_iff.mp hFault
    exact ⟨id, fault, hMem, hFaulty⟩
  · rintro ⟨id, fault, hMem, hFaulty⟩
    refine ⟨.absolute id, hMem, ?_⟩
    rw [fault?_readReference_eq_some_iff.mpr ⟨id, rfl, hFaulty⟩]
    rfl

/-- A formula text fails when it is refused, or when its expression does. -/
theorem evaluateText_eq_error_iff {text : String} {fault : FormulaError} :
    scope.evaluateText text = .error fault ↔
      (∃ refused, Expr.parse text = .error refused ∧ fault = .parse refused) ∨
        ∃ expr reason, Expr.parse text = .ok expr ∧ fault = .reference reason ∧
          scope.sheet.FirstFault expr reason := by
  cases hParse : Expr.parse text with
  | error refused =>
      rw [evaluateText_of_parse_error hParse]
      simp [eq_comm]
  | ok expr =>
      rw [evaluateText_of_parse hParse, ← fault?_eq_some_iff, fault?_mapError,
        Option.map_eq_some_iff]
      simp only [fault?_eq_some_iff, evaluate_eq_error_iff]
      constructor
      · rintro ⟨reason, hFirst, rfl⟩
        exact .inr ⟨expr, reason, rfl, rfl, hFirst⟩
      · rintro (⟨refused, hRefused, -⟩ | ⟨other, reason, hOther, rfl, hFirst⟩)
        · cases hRefused
        · cases hOther
          exact ⟨reason, hFirst, rfl⟩

end Scope

/-! ## What failures depend on -/

/-- Two sheets with items of the same kinds under the same identifiers, formulas under the same,
and the same items laid out. Titles, ratings and places may be different. -/
structure Sheet.SameKinds (first second : Sheet) : Prop where
  kinds : ∀ id, (first.items.get? id).map (fun item => (item.kind, item.isFormula)) =
    (second.items.get? id).map fun item => (item.kind, item.isFormula)
  laidOut : ∀ id, (∃ element ∈ first.layout.elements.toList, element.item = id) ↔
    ∃ element ∈ second.layout.elements.toList, element.item = id

namespace Sheet.SameKinds

variable {first second : Sheet}

theorem refl (sheet : Sheet) : sheet.SameKinds sheet := ⟨fun _ => rfl, fun _ => Iff.rfl⟩

theorem symm (h : first.SameKinds second) : second.SameKinds first :=
  ⟨fun id => (h.kinds id).symm, fun id => (h.laidOut id).symm⟩

/-- An item has its like in the other sheet. -/
theorem exists_get? (h : first.SameKinds second) {id : Uid} {item : Item}
    (hItem : first.items.get? id = some item) :
    ∃ item', second.items.get? id = some item' ∧ item'.kind = item.kind ∧
      item'.isFormula = item.isFormula := by
  have hKinds := h.kinds id
  rw [hItem] at hKinds
  obtain ⟨item', hItem', hSame⟩ := Option.map_eq_some_iff.mp hKinds.symm
  obtain ⟨hKind, hFormula⟩ := Prod.mk.inj hSame
  exact ⟨item', hItem', hKind, hFormula⟩

theorem faulty (h : first.SameKinds second) {id : Uid} {fault : ReferenceError}
    (hFaulty : first.Faulty id fault) : second.Faulty id fault := by
  cases hFaulty with
  | missing hItem =>
      have hKinds := h.kinds id
      rw [hItem] at hKinds
      exact .missing (Option.map_eq_none_iff.mp hKinds.symm)
  | notReadable hItem hNote hRating =>
      obtain ⟨item', hItem', hKind, -⟩ := h.exists_get? hItem
      rw [← hKind] at hNote hRating ⊢
      exact .notReadable hItem' hNote hRating
  | notLaidOut hItem hFormula hNowhere =>
      obtain ⟨item', hItem', -, hSame⟩ := h.exists_get? hItem
      refine .notLaidOut hItem' (hSame.trans hFormula) ?_
      intro element hMem hShown
      obtain ⟨element', hMem', hShown'⟩ := (h.laidOut id).mpr ⟨element, hMem, hShown⟩
      exact hNowhere element' hMem' hShown'

theorem firstFault_iff (h : first.SameKinds second) {expr : Expr} {fault : ReferenceError} :
    first.FirstFault expr fault ↔ second.FirstFault expr fault := by
  unfold FirstFault
  have hFaulty (id : Uid) (fault : ReferenceError) :
      first.Faulty id fault ↔ second.Faulty id fault := ⟨h.faulty, h.symm.faulty⟩
  simp only [hFaulty]

end Sheet.SameKinds

namespace Scope

/-- **Leftmost failure.** An expression fails exactly when an absolute reference in it names what
is missing, is neither a note nor a rating, or is a formula that is not laid out, and then as the
leftmost such reference does. A formula text fails in no other way, once it has been parsed. So
where the same kinds of items are stored and laid out, the same formulas fail, and alike: in every
place, through every filter, inside every formula and whatever numbers are read. -/
theorem evaluate_fails_leftmost (scope : Scope) (expr : Expr) :
    (∀ fault, scope.evaluate expr = .error fault ↔ scope.sheet.FirstFault expr fault) ∧
    ((∃ fault, scope.evaluate expr = .error fault) ↔
      ∃ id fault, .absolute id ∈ expr.references ∧ scope.sheet.Faulty id fault) ∧
    (∀ text fault, scope.evaluateText text = .error fault ↔
      (∃ refused, Expr.parse text = .error refused ∧ fault = .parse refused) ∨
        ∃ expr reason, Expr.parse text = .ok expr ∧ fault = .reference reason ∧
          scope.sheet.FirstFault expr reason) ∧
    ∀ other : Scope, other.sheet.SameKinds scope.sheet →
      (∀ fault, other.evaluate expr = .error fault ↔ scope.evaluate expr = .error fault) ∧
      ∀ text fault, other.evaluateText text = .error fault ↔
        scope.evaluateText text = .error fault := by
  refine ⟨fun _ => evaluate_eq_error_iff, exists_evaluate_eq_error_iff,
    fun _ _ => evaluateText_eq_error_iff, ?_⟩
  intro other hSame
  constructor
  · intro fault
    rw [evaluate_eq_error_iff, evaluate_eq_error_iff, hSame.firstFault_iff]
  · intro text fault
    simp only [evaluateText_eq_error_iff, hSame.firstFault_iff]

/-- A sum of a quotient by zero, which reads no neighbor and a note without a number, and of two
references to nothing: the first of them is what makes it fail, wherever it is evaluated. -/
theorem evaluate_fails_leftmost_column :
    let sheet := Sheet.column ["=1/0", "kg"]
    let expr : Expr := .binary .add
      (.binary .divide (.absolute (Uid.ofNat 2)) (.relative .up 9))
      (.binary .add (.absolute (Uid.ofNat 8)) (.absolute (Uid.ofNat 9)))
    (sheet.scope .anything (Sheet.columnPath 0)).evaluate expr =
        .error (.missing (Uid.ofNat 8)) ∧
      (sheet.scope .pagesAndImages (Sheet.columnPath 1) [Uid.ofNat 1]).evaluate expr =
        .error (.missing (Uid.ofNat 8)) := by
  intro sheet expr
  obtain ⟨hFirst, -, -, hElsewhere⟩ :=
    evaluate_fails_leftmost (sheet.scope .anything (Sheet.columnPath 0)) expr
  have hNote : (sheet.items.get? (Uid.ofNat 2)).map (fun item => (item.kind, item.isFormula)) =
      some (.note, false) := by
    decide +kernel
  have hReadable : ∀ fault, ¬ sheet.Faulty (Uid.ofNat 2) fault := by
    intro fault hFaulty
    cases hFaulty with
    | missing hItem => simp [hItem] at hNote
    | notReadable hItem hKind hRating => simp [hItem, hKind] at hNote
    | notLaidOut hItem hFormula hNowhere => simp [hItem, hFormula] at hNote
  have hFails : (sheet.scope .anything (Sheet.columnPath 0)).evaluate expr =
      .error (.missing (Uid.ofNat 8)) := by
    refine (hFirst _).mpr ⟨[.absolute (Uid.ofNat 2), .relative .up 9], Uid.ofNat 8,
      [.absolute (Uid.ofNat 9)], rfl, ?_, .missing (by decide +kernel)⟩
    intro earlier other hMem
    simp only [List.mem_cons, Reference.absolute.injEq, reduceCtorEq, List.not_mem_nil,
      or_false] at hMem
    rw [hMem]
    exact hReadable other
  exact ⟨hFails, ((hElsewhere (sheet.scope .pagesAndImages (Sheet.columnPath 1) [Uid.ofNat 1])
    (.refl sheet)).1 _).mpr hFails⟩

end Scope

end NoteSheet
