import NoteSheet.Proofs.Failures
import NoteSheet.Proofs.Neighbors

/-!
# Where steps land

A relative reference takes its steps one by one among the elements under one parent. Where some
of its steps have led, the others start again (`hop?_add`), and what is read at the end does not
depend on where they began. As a search compares an element with its siblings alone, steps lead
to the same places in all layouts that have the same elements under that parent
(`Layout.hop?_of_beneath`).

What steps lead to may also be named by its identifier, and an absolute reference lands on the
first element that shows an item. Where this is the same element, both references land on the
same target, unless there is nothing to read (`Sheet.absoluteTarget_of_landing`).

Main statements: `Sheet.readReference_composes`, `Sheet.evaluate_agrees`.
-/

namespace NoteSheet

/-! ## Steps among siblings -/

namespace Layout

variable {layout other : Layout} {direction : Direction} {filter : Filter} {path : Path}

/-- The elements under a parent, in layout order; without a parent, those at the top level. -/
def beneath (layout : Layout) (parent : Option Path) : List Element :=
  layout.elements.toList.filter fun element => element.path.parent? == parent

/-- The siblings of a path are the others under its parent. -/
theorem siblings_eq_filter_beneath (layout : Layout) (path : Path) :
    layout.siblings path = (layout.beneath path.parent?).filter fun element =>
      element.path != path := by
  rw [beneath, List.filter_filter]
  rfl

/-- An element is found among those under the parent of its path. -/
theorem elementAt?_eq_find?_beneath (layout : Layout) (path : Path) :
    layout.elementAt? path =
      (layout.beneath path.parent?).find? fun element => element.path == path := by
  rw [elementAt?_eq_find?, beneath, List.find?_filter]
  congr 1
  funext element
  rw [Bool.eq_iff_iff]
  simp only [beq_iff_eq, decide_eq_true_eq]
  exact ⟨fun hPath => ⟨congrArg Path.parent? hPath, hPath⟩, And.right⟩

/-- A search finds the same in layouts with the same elements under the parent. -/
theorem neighbor?_of_beneath (h : other.beneath path.parent? = layout.beneath path.parent?) :
    other.neighbor? direction filter path = layout.neighbor? direction filter path := by
  have hAt : other.elementAt? path = layout.elementAt? path := by
    rw [elementAt?_eq_find?_beneath, h, ← elementAt?_eq_find?_beneath]
  cases hOrigin : layout.elementAt? path with
  | none =>
      unfold neighbor?
      rw [hAt, hOrigin]
      rfl
  | some origin =>
      rw [neighbor?_of_elementAt? (hAt.trans hOrigin), neighbor?_of_elementAt? hOrigin]
      unfold candidates
      rw [path_of_elementAt? hOrigin, siblings_eq_filter_beneath, h,
        ← siblings_eq_filter_beneath]

/-- **Locality**: steps lead to the same places in layouts with the same elements under the
parent of their start. -/
theorem hop?_of_beneath (h : other.beneath path.parent? = layout.beneath path.parent?)
    (steps : Nat) :
    other.hop? direction filter steps path = layout.hop? direction filter steps path := by
  induction steps generalizing path with
  | zero => rfl
  | succ steps ih =>
      rw [hop?_succ, hop?_succ, neighbor?_of_beneath h]
      cases hNext : layout.neighbor? direction filter path with
      | none => rfl
      | some next =>
          obtain ⟨-, found, -, hLanded, -⟩ := landed_of_neighbor? hNext
          rw [← hLanded.parent?] at h
          exact ih h

/-- Everything that steps lead to is placed and has the parent of their start. What they have
led to after the start is no detached copy and is admitted by the filter. -/
theorem exists_elementAt?_of_hop? {steps : Nat} {origin : Path} {element : Element}
    (hOrigin : layout.elementAt? origin = some element)
    (h : layout.hop? direction filter steps origin = some path) :
    ∃ visited, layout.elementAt? path = some visited ∧ path.parent? = origin.parent? ∧
      (steps ≠ 0 → visited.popup = false ∧ filter.admits visited = true) := by
  cases steps with
  | zero =>
      obtain rfl := Option.some.inj h
      exact ⟨element, hOrigin, rfl, fun hZero => absurd rfl hZero⟩
  | succ steps =>
      obtain ⟨visited, hLanded⟩ := landed_of_hop? h
      exact ⟨visited, hLanded.elementAt?, hLanded.parent?, fun _ =>
        ⟨hLanded.popup, hLanded.admits⟩⟩

end Layout

/-! ## What steps land on -/

namespace Sheet

variable {sheet : Sheet} {filter : Filter} {direction : Direction} {origin path : Path}

/-- What a reference lands on whose steps lead to a path. -/
def targetAt (sheet : Sheet) (path : Path) : Target sheet.items :=
  match sheet.layout.elementAt? path with
  | none => .number 0
  | some element =>
      match sheet.items.formulaNote? element.item with
      | some note => .formula note path
      | none => .number (((sheet.items.get? element.item).bind Scope.plainValue?).getD 0)

theorem relativeTarget_eq (steps : Nat) (entered : List Uid) :
    (sheet.scope filter origin entered).relativeTarget direction steps =
      ((sheet.layout.hop? direction filter steps origin).map sheet.targetAt).getD (.number 0) := by
  unfold Scope.relativeTarget targetAt
  dsimp only
  cases sheet.layout.hop? direction filter steps origin with
  | none => rfl
  | some path =>
      rw [Option.map_some, Option.getD_some]
      dsimp only
      cases sheet.layout.elementAt? path with
      | none => rfl
      | some element =>
          dsimp only
          cases sheet.items.formulaNote? element.item <;> rfl

/-- What a target reads as does not depend on where the reference to it stands. -/
theorem read_origin (origin origin' : Path) (entered : List Uid) (target : Target sheet.items) :
    (sheet.scope filter origin entered).read target =
      (sheet.scope filter origin' entered).read target := by
  cases target with
  | number value => rw [Scope.read_number, Scope.read_number]
  | formula note path => rw [read_note, read_note]

/-! ## Steps in two parts -/

/-- The steps that are left read from where the first ones have led what all of them read from
the start. -/
theorem readRelative_add {first : Nat}
    (h : sheet.layout.hop? direction filter first origin = some path) (more : Nat)
    (entered : List Uid) :
    (sheet.scope filter origin entered).readRelative direction (first + more) =
      (sheet.scope filter path entered).readRelative direction more := by
  unfold Scope.readRelative
  rw [relativeTarget_eq, relativeTarget_eq, Layout.hop?_add, h, Option.bind_some]
  exact read_origin origin path entered _

/-- **Steps compose.** From a placed element, a reference of `first + more` steps reads what one
of `more` steps reads from where the first steps lead, and zero where they lead nowhere.
Wherever steps lead, an element is placed under the same parent, and all but the start are
attached and admitted by the filter. So steps lead to the same places in every layout that has
the same elements in the same order under that parent, the start among them. -/
theorem readReference_composes (sheet : Sheet) (filter : Filter) (direction : Direction)
    {origin : Path} {element : Element}
    (hOrigin : sheet.layout.elementAt? origin = some element) :
    (∀ first more entered,
      (∀ path, sheet.layout.hop? direction filter first origin = some path →
        (sheet.scope filter origin entered).readReference (.relative direction (first + more)) =
          (sheet.scope filter path entered).readReference (.relative direction more)) ∧
      (sheet.layout.hop? direction filter first origin = none →
        (sheet.scope filter origin entered).readReference (.relative direction (first + more)) =
          .ok 0)) ∧
    (∀ steps path, sheet.layout.hop? direction filter steps origin = some path →
      ∃ visited, sheet.layout.elementAt? path = some visited ∧ path.parent? = origin.parent? ∧
        (steps ≠ 0 → visited.popup = false ∧ filter.admits visited = true)) ∧
    ∀ other : Layout,
      other.beneath origin.parent? = sheet.layout.beneath origin.parent? →
      ∀ steps, other.hop? direction filter steps origin =
        sheet.layout.hop? direction filter steps origin := by
  refine ⟨?_, ?_, ?_⟩
  · intro first more entered
    constructor
    · intro path hPath
      exact congrArg Except.ok (readRelative_add hPath more entered)
    · intro hNowhere
      apply readReference_of_not_placed
      rw [Layout.hop?_add, hNowhere]
      rfl
  · intro steps path hPath
    exact Layout.exists_elementAt?_of_hop? hOrigin hPath
  · intro other hBeneath steps
    exact Layout.hop?_of_beneath hBeneath steps

/-- A column below whose notes others are nested, which come first in layout order. -/
def nestedColumn : Sheet :=
  let sheet := column ["8", "3", "=$U1+$U2"]
  let nested : Element :=
    { path := (columnPath 0).child (Uid.ofNat 9), item := Uid.ofNat 9, kind := .note
      box := ⟨0, 10, 10, 10⟩ }
  ⟨sheet.items, .placing (nested :: sheet.layout.elements.toList)⟩

/-- From the bottom of the column, two steps up read what one step reads from the middle, and
the nested note does not stand in the way. -/
theorem readReference_composes_column :
    let sheet := column ["8", "3", "=$U1+$U2"]
    (sheet.scope .anything (columnPath 2)).readReference (.relative .up 2) =
        (sheet.scope .anything (columnPath 1)).readReference (.relative .up 1) ∧
      (sheet.scope .anything (columnPath 2)).readReference (.relative .up 4) = .ok 0 ∧
      nestedColumn.layout.hop? .up .anything 2 (columnPath 2) = some (columnPath 0) := by
  intro sheet
  obtain ⟨element, hOrigin⟩ : ∃ element, sheet.layout.elementAt? (columnPath 2) = some element :=
    Option.isSome_iff_exists.mp (by decide +kernel)
  have hHops : sheet.layout.hop? .up .anything 1 (columnPath 2) = some (columnPath 1) ∧
      sheet.layout.hop? .up .anything 2 (columnPath 2) = some (columnPath 0) ∧
      sheet.layout.hop? .up .anything 3 (columnPath 2) = none := by
    decide +kernel
  have hBeneath : nestedColumn.layout.beneath (columnPath 2).parent? =
      sheet.layout.beneath (columnPath 2).parent? := by
    decide +kernel
  obtain ⟨hComposes, -, hSame⟩ := readReference_composes sheet .anything .up hOrigin
  exact ⟨(hComposes 1 1 []).1 _ hHops.1, (hComposes 3 1 []).2 hHops.2.2,
    (hSame _ hBeneath 2).trans hHops.2.1⟩

/-! ## The same cell by steps and by name -/

variable {element : Element} {item : Item}

/-- Steps land on the same target as a name, where they lead to the first element that shows the
item and where it can be read. -/
theorem absoluteTarget_of_landing (hPlaced : sheet.layout.elementAt? path = some element)
    (hFirst : sheet.layout.elementFor? element.item = some element)
    (hItem : sheet.items.get? element.item = some item)
    (hReadable : item.kind = .note ∨ item.kind = .rating) (entered : List Uid) :
    (sheet.scope filter origin entered).absoluteTarget element.item =
      .ok (sheet.targetAt path) := by
  unfold Scope.absoluteTarget targetAt
  dsimp only
  rw [hItem, hPlaced]
  dsimp only
  cases sheet.items.formulaNote? element.item with
  | some note =>
      dsimp only
      rw [hFirst, ← Layout.path_of_elementAt? hPlaced]
  | none =>
      obtain ⟨value, hValue⟩ : ∃ value, Scope.plainValue? item = some value := by
        unfold Scope.plainValue?
        rcases hReadable with hKind | hKind
        · exact ⟨_, by rw [hKind]⟩
        · exact ⟨_, by rw [hKind]⟩
      dsimp only
      rw [hItem, Option.bind_some, hValue]
      rfl

/-- Steps land on zero where a name is at fault. -/
theorem targetAt_of_faulty {fault : ReferenceError}
    (hPlaced : sheet.layout.elementAt? path = some element)
    (hFaulty : sheet.Faulty element.item fault) : sheet.targetAt path = .number 0 := by
  have hNothing : (sheet.items.get? element.item).bind Item.formula? = none ∧
      (sheet.items.get? element.item).bind Scope.plainValue? = none := by
    cases hFaulty with
    | missing hItem =>
        rw [hItem]
        exact ⟨rfl, rfl⟩
    | notReadable hItem hNote hRating =>
        rw [hItem]
        exact ⟨Item.formula?_eq_none hNote, Scope.plainValue?_eq_none hNote hRating⟩
    | notLaidOut hItem hFormula hNowhere =>
        have hMem := Array.mem_toList_iff.mpr (Layout.mem_of_elementAt? hPlaced)
        exact absurd rfl (hNowhere element hMem)
  unfold targetAt
  rw [hPlaced]
  dsimp only
  rw [ItemStore.formulaNote?_eq_none hNothing.1, hNothing.2]
  rfl

/-- A reference by steps lands on what its last step leads to. -/
theorem evaluate_relative_of_hop? {steps : Nat}
    (hHop : sheet.layout.hop? direction filter steps origin = some path) (entered : List Uid) :
    (sheet.scope filter origin entered).evaluate (.relative direction steps) =
      .ok ((sheet.scope filter origin entered).read (sheet.targetAt path)) := by
  show Except.ok ((sheet.scope filter origin entered).read _) = _
  rw [relativeTarget_eq, hHop]
  rfl

/-- **One cell by two references.** Steps that lead to the first element that shows an item, and
the name of the item, are worth the same number in every place, through every filter and inside
every formula, if the item is a note, a formula or not, or a rating. If it is missing or of
another kind, the steps are worth zero and the name is an error. -/
theorem evaluate_agrees (sheet : Sheet) (filter : Filter) (origin : Path) (entered : List Uid)
    {direction : Direction} {steps : Nat} {path : Path} {element : Element}
    (hHop : sheet.layout.hop? direction filter steps origin = some path)
    (hPlaced : sheet.layout.elementAt? path = some element)
    (hFirst : ∃ before behind, sheet.layout.elements.toList = before ++ element :: behind ∧
      ∀ other ∈ before, other.item ≠ element.item) :
    let scope := sheet.scope filter origin entered
    (∀ item, sheet.items.get? element.item = some item →
      item.kind = .note ∨ item.kind = .rating →
        ∃ x, scope.evaluate (.relative direction steps) = .ok x ∧
          scope.evaluate (.absolute element.item) = .ok x) ∧
    (sheet.items.get? element.item = none →
      scope.evaluate (.relative direction steps) = .ok 0 ∧
        scope.evaluate (.absolute element.item) = .error (.missing element.item)) ∧
    (∀ item, sheet.items.get? element.item = some item →
      item.kind ≠ .note → item.kind ≠ .rating →
        scope.evaluate (.relative direction steps) = .ok 0 ∧
          scope.evaluate (.absolute element.item) =
            .error (.notReadable element.item item.kind)) := by
  intro scope
  have hFaulty {fault : ReferenceError} (hFault : sheet.Faulty element.item fault) :
      scope.evaluate (.relative direction steps) = .ok 0 ∧
        scope.evaluate (.absolute element.item) = .error fault := by
    constructor
    · rw [evaluate_relative_of_hop? hHop, targetAt_of_faulty hPlaced hFault, Scope.read_number]
    · exact Scope.evaluate_eq_error_iff.mpr
        ⟨[], element.item, [], rfl, by simp, hFault⟩
  refine ⟨?_, ?_, ?_⟩
  · intro item hItem hReadable
    obtain ⟨before, behind, hElements, hBefore⟩ := hFirst
    have hShown : sheet.layout.elementFor? element.item = some element :=
      Layout.elementFor?_eq_some_iff.mpr ⟨before, behind, hElements, rfl, hBefore⟩
    have hTarget : scope.absoluteTarget element.item = .ok (sheet.targetAt path) :=
      absoluteTarget_of_landing hPlaced hShown hItem hReadable entered
    refine ⟨_, evaluate_relative_of_hop? hHop entered, ?_⟩
    exact congrArg (Except.map scope.read) hTarget
  · intro hItem
    exact hFaulty (.missing hItem)
  · intro item hItem hNote hRating
    exact hFaulty (.notReadable hItem hNote hRating)

/-- Two steps up from the bottom of `circle` and the name of the note at its top are worth the
same inside the other cell of the circle. -/
theorem evaluate_agrees_circle :
    let scope := circle.scope .anything (columnPath 2) [Uid.ofNat 2]
    ∃ x, scope.evaluate (.relative .up 2) = .ok x ∧
      scope.evaluate (.absolute (Uid.ofNat 1)) = .ok x := by
  intro scope
  let top : Element :=
    { path := columnPath 0, item := Uid.ofNat 1, kind := .note, box := ⟨0, 0, 10, 10⟩ }
  have hTop : circle.layout.hop? .up .anything 2 (columnPath 2) = some (columnPath 0) ∧
      circle.layout.elementAt? (columnPath 0) = some top ∧
      circle.layout.elementFor? top.item = some top := by
    decide +kernel
  obtain ⟨before, behind, hElements, -, hBefore⟩ := Layout.elementFor?_eq_some_iff.mp hTop.2.2
  obtain ⟨hReadable, -, -⟩ := evaluate_agrees circle .anything (columnPath 2) [Uid.ofNat 2] hTop.1
    hTop.2.1 ⟨before, behind, hElements, hBefore⟩
  exact hReadable circleTop.item circleTop.stored (Or.inl rfl)

end Sheet

end NoteSheet
