import NoteSheet.Proofs.Broken
import NoteSheet.Proofs.Stores

/-!
# What a cell depends on

The outcome of a cell is computed from the items alone that its references ask for, and from
those that the formulas met on the way ask for. `Sheet.ReliesOn` collects their identifiers:
the least set that has the cell's own item, the item each of its references names, and what
the cells that its references land on rely on. The set is taken from one store, while the
stores to be compared may differ in everything else.

The two evaluations are followed side by side. Where the stores agree on what a cell relies
on, each reference of the cell lands alike in both (`lands_alike`), and a note that is met is
read alike whatever has been entered (`read_alike`, by induction over what is being evaluated).
Main statement: `outcome_localised`.
-/

namespace NoteSheet

/-! ## Targets in two stores -/

/-- The path at which a formula note is met. -/
def Target.path? {items : ItemStore} : Target items → Option Path
  | .number _ => none
  | .formula _ path => some path

/-- Targets in two stores that are the same number, or the same note met at one path. -/
inductive Target.Alike {items items' : ItemStore} : Target items → Target items' → Prop
  | number (value : Float) : Alike (.number value) (.number value)
  | formula {note : FormulaNote items} {note' : FormulaNote items'} (path : Path)
      (hItem : note'.item = note.item) : Alike (.formula note path) (.formula note' path)

/-- A formula text belongs to the item of its note. -/
theorem FormulaNote.text_eq {items items' : ItemStore} {note : FormulaNote items}
    {note' : FormulaNote items'} (hItem : note'.item = note.item) : note'.text = note.text := by
  have hText := note'.formula
  rw [hItem, note.formula] at hText
  exact (Option.some.inj hText).symm

theorem ItemStore.formulaNote?_eq_none {items : ItemStore} {id : Uid}
    (h : (items.get? id).bind Item.formula? = none) : items.formulaNote? id = none := by
  unfold formulaNote?
  split
  · rfl
  · rename_i item hItem
    rw [hItem, Option.bind_some] at h
    split
    · rfl
    · rename_i text hText
      rw [h] at hText
      cases hText

theorem ItemStore.exists_formulaNote? {items : ItemStore} {id : Uid} {item : Item}
    {text : String} (hItem : items.get? id = some item) (hText : item.formula? = some text) :
    ∃ note, items.formulaNote? id = some note ∧ note.item = item := by
  unfold formulaNote?
  split
  · rename_i hMissing
    rw [hItem] at hMissing
    cases hMissing
  · rename_i found hFound
    rw [hItem] at hFound
    cases hFound
    split
    · rename_i hMissing
      rw [hText] at hMissing
      cases hMissing
    · exact ⟨_, rfl, rfl⟩

/-- Whether a formula note is stored under an identifier is a matter of the item there. -/
theorem ItemStore.formulaNote?_alike {items items' : ItemStore} {id : Uid}
    (hGet : items'.get? id = items.get? id) :
    (items.formulaNote? id = none ∧ items'.formulaNote? id = none) ∨
      ∃ note note', items.formulaNote? id = some note ∧ items'.formulaNote? id = some note' ∧
        note'.item = note.item := by
  cases hText : (items.get? id).bind Item.formula? with
  | none => exact Or.inl ⟨formulaNote?_eq_none hText, formulaNote?_eq_none (hGet ▸ hText)⟩
  | some text =>
      obtain ⟨item, hItem, hFormula⟩ := Option.bind_eq_some_iff.mp hText
      obtain ⟨note, hNote, hSame⟩ := exists_formulaNote? hItem hFormula
      obtain ⟨note', hNote', hSame'⟩ := exists_formulaNote? (hGet.trans hItem) hFormula
      exact Or.inr ⟨note, note', hNote, hNote', hSame'.trans hSame.symm⟩

namespace Sheet

/-! ## What a cell relies on -/

/-- The element to which the steps of a relative reference lead. -/
def landing? (sheet : Sheet) (filter : Filter) (origin : Path) (direction : Direction)
    (steps : Nat) : Option Element :=
  (sheet.layout.hop? direction filter steps origin).bind sheet.layout.elementAt?

/-- The identifier of the item that a reference asks for. -/
def named? (sheet : Sheet) (filter : Filter) (origin : Path) : Reference → Option Uid
  | .absolute id => some id
  | .relative direction steps =>
      (sheet.landing? filter origin direction steps).map Element.item

/-- The identifiers of the items on which the outcome at a path relies. -/
inductive ReliesOn (sheet : Sheet) (filter : Filter) : Path → Uid → Prop
  /-- The item shown at the path itself. -/
  | own {path : Path} {element : Element} (hElement : sheet.layout.elementAt? path = some element) :
      ReliesOn sheet filter path element.item
  /-- What a reference of the formula there asks for. -/
  | named {path : Path} {text : String} {ref : Reference} {id : Uid}
      (hText : sheet.formulaAt? path = some text) (hMem : ref ∈ Expr.referencesIn text)
      (hNamed : sheet.named? filter path ref = some id) : ReliesOn sheet filter path id
  /-- What a formula cell relies on that a reference of the formula lands on. -/
  | beyond {path next : Path} {id : Uid} (hRefers : sheet.RefersTo filter path next)
      (hRelies : ReliesOn sheet filter next id) : ReliesOn sheet filter path id

/-- Another store has the same items as far as the outcome at a path relies on them. -/
def AgreesFor (sheet : Sheet) (filter : Filter) (path : Path) (items' : ItemStore) : Prop :=
  ∀ id, sheet.ReliesOn filter path id → items'.get? id = sheet.items.get? id

/-- **Least**: identifiers that include the items shown at some paths and the items that the
references there ask for include all that those paths rely on, when the references from there
land on no formula cell at another path. -/
theorem ReliesOn.mem_of_closed {sheet : Sheet} {filter : Filter} (cells : List Path)
    (ids : List Uid)
    (hOwn : ∀ path ∈ cells, ∀ element ∈ sheet.layout.elementAt? path, element.item ∈ ids)
    (hNamed : ∀ path ∈ cells, ∀ text ∈ sheet.formulaAt? path, ∀ ref ∈ Expr.referencesIn text,
      ∀ id ∈ sheet.named? filter path ref, id ∈ ids)
    (hLands : ∀ path ∈ cells, ∀ text ∈ sheet.formulaAt? path, ∀ ref ∈ Expr.referencesIn text,
      ∀ next ∈ ((sheet.scope filter path).target ref).toOption.bind Target.path?, next ∈ cells)
    {path : Path} {id : Uid} (hRelies : sheet.ReliesOn filter path id) (hCell : path ∈ cells) :
    id ∈ ids := by
  induction hRelies with
  | own hElement => exact hOwn _ hCell _ hElement
  | named hText hMem hAsked => exact hNamed _ hCell _ hText _ hMem _ hAsked
  | @beyond path next _ hRefers _ ih =>
      obtain ⟨text, ref, note, hText, hMem, hTarget⟩ := hRefers
      apply ih
      apply hLands path hCell text hText ref hMem next
      rw [hTarget]
      rfl

variable {items items' : ItemStore} {layout : Layout} {filter : Filter} {path : Path}

theorem AgreesFor.next {next : Path} (h : AgreesFor ⟨items, layout⟩ filter path items')
    (hRefers : RefersTo ⟨items, layout⟩ filter path next) :
    AgreesFor ⟨items, layout⟩ filter next items' :=
  fun id hRelies => h id (.beyond hRefers hRelies)

/-- The same item is shown at the path. -/
theorem AgreesFor.itemAt?_eq (h : AgreesFor ⟨items, layout⟩ filter path items') :
    itemAt? ⟨items', layout⟩ path = itemAt? ⟨items, layout⟩ path := by
  show (layout.elementAt? path).bind (fun element => items'.get? element.item) =
    (layout.elementAt? path).bind fun element => items.get? element.item
  cases hElement : layout.elementAt? path with
  | none => rfl
  | some element => exact h element.item (.own hElement)

/-- What a reference asks for is the same in both stores. -/
theorem AgreesFor.get?_named (h : AgreesFor ⟨items, layout⟩ filter path items') {text : String}
    (hText : formulaAt? ⟨items, layout⟩ path = some text) {ref : Reference}
    (hMem : ref ∈ Expr.referencesIn text) {id : Uid}
    (hNamed : named? ⟨items, layout⟩ filter path ref = some id) : items'.get? id = items.get? id :=
  h id (.named hText hMem hNamed)

/-! ## The two evaluations side by side -/

/-- Where the item under an identifier is the same, a reference by that identifier fails alike in
both stores or lands on the same. -/
theorem absolute_alike {id : Uid} (hSame : items'.get? id = items.get? id) :
    (∃ fault, (scope ⟨items, layout⟩ filter path).absoluteTarget id = .error fault ∧
        (scope ⟨items', layout⟩ filter path).absoluteTarget id = .error fault) ∨
      ∃ target target', (scope ⟨items, layout⟩ filter path).absoluteTarget id = .ok target ∧
        (scope ⟨items', layout⟩ filter path).absoluteTarget id = .ok target' ∧
        target.Alike target' := by
  unfold Scope.absoluteTarget
  dsimp only
  rw [hSame]
  cases items.get? id with
  | none => exact Or.inl ⟨_, rfl, rfl⟩
  | some item =>
      rcases ItemStore.formulaNote?_alike hSame with
        ⟨hNote, hNote'⟩ | ⟨note, note', hNote, hNote', hItem⟩
      · rw [hNote, hNote']
        dsimp only
        cases Scope.plainValue? item with
        | none => exact Or.inl ⟨_, rfl, rfl⟩
        | some value => exact Or.inr ⟨_, _, rfl, rfl, .number value⟩
      · rw [hNote, hNote']
        dsimp only
        cases layout.elementFor? id with
        | none => exact Or.inl ⟨_, rfl, rfl⟩
        | some element => exact Or.inr ⟨_, _, rfl, rfl, .formula element.path hItem⟩

/-- Steps lead to the same element whatever is stored, so they land on the same where its item
is the same. -/
theorem relative_alike {direction : Direction} {steps : Nat}
    (hGet : ∀ element, landing? ⟨items, layout⟩ filter path direction steps = some element →
      items'.get? element.item = items.get? element.item) :
    ((scope ⟨items, layout⟩ filter path).relativeTarget direction steps).Alike
      ((scope ⟨items', layout⟩ filter path).relativeTarget direction steps) := by
  unfold landing? at hGet
  unfold Scope.relativeTarget
  dsimp only at hGet ⊢
  cases hHop : layout.hop? direction filter steps path with
  | none => exact .number 0
  | some next =>
      rw [hHop, Option.bind_some] at hGet
      dsimp only
      cases hElement : layout.elementAt? next with
      | none => exact .number 0
      | some element =>
          have hSame : items'.get? element.item = items.get? element.item :=
            hGet element hElement
          dsimp only
          rw [hSame]
          rcases ItemStore.formulaNote?_alike hSame with
            ⟨hNote, hNote'⟩ | ⟨note, note', hNote, hNote', hItem⟩
          · rw [hNote, hNote']
            exact .number _
          · rw [hNote, hNote']
            exact .formula next hItem

/-- **Landing alike**: where the item that a reference asks for is the same, the reference
fails alike in both stores or lands on the same. -/
theorem lands_alike {ref : Reference}
    (hGet : ∀ id, named? ⟨items, layout⟩ filter path ref = some id →
      items'.get? id = items.get? id) :
    (∃ fault, (scope ⟨items, layout⟩ filter path).target ref = .error fault ∧
        (scope ⟨items', layout⟩ filter path).target ref = .error fault) ∨
      ∃ target target', (scope ⟨items, layout⟩ filter path).target ref = .ok target ∧
        (scope ⟨items', layout⟩ filter path).target ref = .ok target' ∧
        target.Alike target' := by
  cases ref with
  | absolute id => exact absolute_alike (hGet id rfl)
  | relative direction steps =>
      refine Or.inr ⟨_, _, rfl, rfl, relative_alike fun element hElement => hGet _ ?_⟩
      exact congrArg (Option.map Element.item) hElement

/-- A formula has the same result when the notes that its references land on are read
alike. -/
theorem evaluateText_alike (hAgrees : AgreesFor ⟨items, layout⟩ filter path items')
    {entered : List Uid} {text : String} (hText : formulaAt? ⟨items, layout⟩ path = some text)
    (hRead : ∀ (next : Path) (note : FormulaNote items) (note' : FormulaNote items'),
      note'.item = note.item → RefersTo ⟨items, layout⟩ filter path next →
      Shows ⟨items, layout⟩ next note.id →
        (scope ⟨items', layout⟩ filter path entered).read (.formula note' next) =
          (scope ⟨items, layout⟩ filter path entered).read (.formula note next)) :
    (scope ⟨items', layout⟩ filter path entered).evaluateText text =
      (scope ⟨items, layout⟩ filter path entered).evaluateText text := by
  apply Related.eq
  apply Scope.evaluateText_related .eq
  intro ref hMem
  rw [Scope.readReference_eq, Scope.readReference_eq, Scope.target_entered,
    Scope.target_entered ⟨items, layout⟩]
  have hGet (id : Uid) (hNamed : named? ⟨items, layout⟩ filter path ref = some id) :
      items'.get? id = items.get? id := hAgrees.get?_named hText hMem hNamed
  rcases lands_alike hGet with
    ⟨fault, hTarget, hTarget'⟩ | ⟨target, target', hTarget, hTarget', hAlike⟩
  · rw [hTarget, hTarget']
    exact .error fault
  · rw [hTarget, hTarget']
    cases hAlike with
    | number value =>
        refine .ok ?_
        rw [Scope.read_number, Scope.read_number]
    | @formula note note' next hItem =>
        exact .ok (hRead next note note' hItem ⟨text, ref, note, hText, hMem, hTarget⟩
          (Scope.shows_of_target hTarget))

/-- **Reading alike**: a note that is met at a path is read as the same number in both
stores, whatever is being evaluated, when they agree on what the cell at the path relies
on. -/
theorem read_alike (origin : Path) (entered : List Uid) {note : FormulaNote items}
    {note' : FormulaNote items'} (hItem : note'.item = note.item)
    (hShows : Shows ⟨items, layout⟩ path note.id)
    (hAgrees : AgreesFor ⟨items, layout⟩ filter path items') :
    (scope ⟨items', layout⟩ filter origin entered).read (.formula note' path) =
      (scope ⟨items, layout⟩ filter origin entered).read (.formula note path) := by
  induction entered using entered_induction ⟨items, layout⟩
    generalizing origin path note note' with
  | step entered ih =>
      have hId : note'.id = note.id := congrArg Item.id hItem
      by_cases hEntered : note.id ∈ entered
      · rw [read_note_of_mem origin (hId ▸ hEntered), read_note_of_mem origin hEntered]
      · rw [read_note_of_not_mem origin (hId ▸ hEntered), read_note_of_not_mem origin hEntered,
          FormulaNote.text_eq hItem, hId]
        congr 1
        apply evaluateText_alike hAgrees (formulaAt?_of_shows hShows)
        intro next met met' hMet hRefers hNext
        exact ih note hEntered path hMet hNext (hAgrees.next hRefers)

theorem AgreesFor.formulaAt?_eq (h : AgreesFor ⟨items, layout⟩ filter path items') :
    formulaAt? ⟨items', layout⟩ path = formulaAt? ⟨items, layout⟩ path := by
  unfold formulaAt?
  rw [h.itemAt?_eq]

/-- The cell at the path has the same result. -/
theorem AgreesFor.resultAt?_eq (h : AgreesFor ⟨items, layout⟩ filter path items') :
    resultAt? ⟨items', layout⟩ filter path = resultAt? ⟨items, layout⟩ filter path := by
  unfold resultAt?
  rw [h.formulaAt?_eq]
  cases hText : formulaAt? ⟨items, layout⟩ path with
  | none => rfl
  | some text =>
      refine congrArg some (evaluateText_alike h hText ?_)
      intro next note note' hItem hRefers hShows
      exact read_alike path [] hItem hShows (h.next hRefers)

/-- **Same outcome**: what becomes of a path is the same with any store that has the same
items as far as the path relies on them. -/
theorem AgreesFor.outcome_eq (h : AgreesFor ⟨items, layout⟩ filter path items') :
    outcome ⟨items', layout⟩ filter path = outcome ⟨items, layout⟩ filter path := by
  rw [Sheet.outcome_eq, Sheet.outcome_eq, h.itemAt?_eq, h.resultAt?_eq]

/-! ## Items a cell does not rely on -/

/-- Operations on items on which a path does not rely leave the store the same for it. -/
theorem agreesFor_foldl {history : List ItemStore.Operation}
    (hOther : ∀ operation ∈ history,
      ¬ ReliesOn ⟨items, layout⟩ filter path operation.id) :
    AgreesFor ⟨items, layout⟩ filter path (history.foldl ItemStore.Operation.apply items) := by
  intro id hRelies
  apply ItemStore.get?_foldl_of_ne
  rintro operation hMem rfl
  exact hOther operation hMem hRelies

/-- **Only what is referenced counts**: what becomes of a path (that it is skipped, the value
that is shown, or the title) is the same with every store that has the same items as far as
the path relies on them. So storing, changing or removing other items changes nothing there,
and no change of items changes the element on which steps land. -/
theorem outcome_localised (items : ItemStore) (layout : Layout) (filter : Filter) (path : Path) :
    (∀ items' : ItemStore,
      (∀ id, ReliesOn ⟨items, layout⟩ filter path id → items'.get? id = items.get? id) →
        outcome ⟨items', layout⟩ filter path = outcome ⟨items, layout⟩ filter path) ∧
      (∀ history : List ItemStore.Operation,
        (∀ operation ∈ history, ¬ ReliesOn ⟨items, layout⟩ filter path operation.id) →
          outcome ⟨history.foldl ItemStore.Operation.apply items, layout⟩ filter path =
            outcome ⟨items, layout⟩ filter path) ∧
      ∀ (history : List ItemStore.Operation) (origin : Path) (direction : Direction) (steps : Nat),
        landing? ⟨history.foldl ItemStore.Operation.apply items, layout⟩ filter origin direction
            steps =
          landing? ⟨items, layout⟩ filter origin direction steps := by
  refine ⟨?_, ?_, ?_⟩
  · intro items' hAgrees
    exact AgreesFor.outcome_eq hAgrees
  · intro history hOther
    exact (agreesFor_foldl hOther).outcome_eq
  · intro history origin direction steps
    rfl

/-- A cell that reads another one, above a cell that nothing reads. -/
def chain : Sheet := column ["=$D1+1", "=7*2", "=9"]

/-- The top of `chain` does not rely on the item at its bottom. -/
theorem not_reliesOn_bottom : ¬ chain.ReliesOn .anything (columnPath 0) (Uid.ofNat 3) := by
  have hClosed :
      (∀ path ∈ [columnPath 0, columnPath 1], ∀ element ∈ chain.layout.elementAt? path,
        element.item ∈ [Uid.ofNat 1, Uid.ofNat 2]) ∧
      (∀ path ∈ [columnPath 0, columnPath 1], ∀ text ∈ chain.formulaAt? path,
        ∀ ref ∈ Expr.referencesIn text, ∀ id ∈ chain.named? .anything path ref,
          id ∈ [Uid.ofNat 1, Uid.ofNat 2]) ∧
      ∀ path ∈ [columnPath 0, columnPath 1], ∀ text ∈ chain.formulaAt? path,
        ∀ ref ∈ Expr.referencesIn text,
          ∀ next ∈ ((chain.scope .anything path).target ref).toOption.bind Target.path?,
            next ∈ [columnPath 0, columnPath 1] := by
    decide +kernel
  intro hRelies
  have hMem := hRelies.mem_of_closed _ _ hClosed.1 hClosed.2.1 hClosed.2.2 (by simp)
  exact absurd hMem (by decide +kernel)

/-- What may be done to the note at the bottom of `chain`: it is made a plain one and then
removed. -/
def bottomHistory : List ItemStore.Operation :=
  [.edit (Uid.ofNat 3) { title := some "12" }, .erase (Uid.ofNat 3)]

/-- The top of `chain` comes out the same after what is done to the note at its bottom. -/
theorem outcome_localised_chain :
    outcome ⟨bottomHistory.foldl ItemStore.Operation.apply chain.items, chain.layout⟩ .anything
        (columnPath 0) =
      outcome ⟨chain.items, chain.layout⟩ .anything (columnPath 0) := by
  have hOther : ∀ operation ∈ bottomHistory,
      ¬ chain.ReliesOn .anything (columnPath 0) operation.id := by
    simp [bottomHistory, ItemStore.Operation.id, not_reliesOn_bottom]
  exact (outcome_localised chain.items chain.layout .anything (columnPath 0)).2.1 bottomHistory
    hOther

end Sheet

end NoteSheet
