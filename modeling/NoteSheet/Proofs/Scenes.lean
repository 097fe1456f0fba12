import Mathlib.Data.List.Induction
import NoteSheet.Proofs.Dependence
import NoteSheet.Proofs.Marking
import NoteSheet.Scene

/-!
# Building scenes

A scene lists items, elements and paths to evaluate. Building it stores the items one after
the other, places the elements one behind the other, and flags paths. Here is what the built
sheet holds in terms of the lists alone (`Scene.IsBuilt`), at which element a scene that
cannot be laid out is refused, and what in the lists does not matter
(`Scene.Rearranged`): the order and the repetitions of the paths to evaluate, the order of
items of different identifiers, and items that later ones replace.

Sheets that hold the same come out the same in a recalculation, whatever lists they were built
from (`Sheet.SameContent.recalculateIn_eq`). Main statement: `build_isFaithful`.
-/

namespace NoteSheet

/-! ## Sheets that hold the same -/

/-- The same items, the same elements in the same order, and the same flagged paths. -/
structure Sheet.SameContent (first second : Sheet) : Prop where
  items : first.items.get? = second.items.get?
  elements : first.layout.elements = second.layout.elements
  flagged : ∀ path, path ∈ first.layout.flagged ↔ path ∈ second.layout.flagged

namespace Sheet.SameContent

variable {first second : Sheet}

theorem agreesFor (h : first.SameContent second) (filter : Filter) (path : Path) :
    first.AgreesFor filter path second.items := by
  intro id _
  rw [h.items]

theorem sameView (h : first.SameContent second) (filter : Filter) :
    first.layout.SameView second.layout filter := by
  apply Layout.SameView.of_bareElements
  unfold Layout.bareElements
  rw [h.elements]

/-- The formula at a path is the same. -/
theorem formulaAt?_eq (h : first.SameContent second) (path : Path) :
    first.formulaAt? path = second.formulaAt? path := by
  have hItems := (h.agreesFor .anything path).formulaAt?_eq
  have hLayout := (h.sameView .anything).itemAt?_eq second.items path
  rw [← hItems]
  unfold formulaAt?
  rw [hLayout]

/-- The cell at a path has the same result. -/
theorem resultAt?_eq (h : first.SameContent second) (filter : Filter) (path : Path) :
    first.resultAt? filter path = second.resultAt? filter path :=
  (h.agreesFor filter path).resultAt?_eq.symm.trans
    ((h.sameView filter).resultAt?_eq second.items path)

/-- A path comes out the same. -/
theorem outcome_eq (h : first.SameContent second) (filter : Filter) (path : Path) :
    first.outcome filter path = second.outcome filter path :=
  (h.agreesFor filter path).outcome_eq.symm.trans
    ((h.sameView filter).outcome_eq second.items path)

/-- **Recalculated alike**: sheets that hold the same show the same and have the same counts
after a recalculation, whatever the orders in which their paths are gone through. -/
theorem recalculateIn_eq (h : first.SameContent second) (filter : Filter)
    {order order' : List Path} (hOrder : order.Perm first.layout.flagged)
    (hOrder' : order'.Perm second.layout.flagged) :
    (first.recalculateIn filter order).1.layout.elements =
        (second.recalculateIn filter order').1.layout.elements ∧
      (first.recalculateIn filter order).2 = (second.recalculateIn filter order').2 := by
  have hFlagged : first.layout.flagged.Perm second.layout.flagged :=
    (List.perm_ext_iff_of_nodup first.layout.flagged_nodup second.layout.flagged_nodup).mpr
      h.flagged
  have hPerm : order.Perm order' := (hOrder.trans hFlagged).trans hOrder'.symm
  have hRun := recalculatedOn_recalculateIn first filter order
  have hRun' := recalculatedOn_recalculateIn second filter order'
  constructor
  · rw [hRun.elements, hRun'.elements, h.elements]
    congr 1
    funext element
    simp only [shownOn, shown, h.outcome_eq, hPerm.mem_iff]
  · have hValue : first.hasValue filter = second.hasValue filter := by
      funext path
      rw [hasValue, hasValue, h.resultAt?_eq]
    have hFails : first.fails filter = second.fails filter := by
      funext path
      rw [fails, fails, h.resultAt?_eq]
    have hLacks : first.lacksFormula = second.lacksFormula := by
      funext path
      rw [lacksFormula, lacksFormula, h.formulaAt?_eq]
    apply Tally.eq_of_counts hRun.formulas hRun'.formulas
    · rw [hRun.calculated, hRun'.calculated, hValue, hPerm.countP_eq]
    · rw [hRun.failed, hRun'.failed, hFails, hPerm.countP_eq]
    · rw [hRun.skipped, hRun'.skipped, hLacks, hPerm.countP_eq]

end Sheet.SameContent

namespace Scene

/-! ## Placing elements -/

/-- Elements at paths of their own are placed behind the others, in their order. -/
theorem foldlM_insert_of_nodup {layout : Layout} {elements : List Element}
    (hNodup : ((layout.elements.toList ++ elements).map Element.path).Nodup) :
    ∃ next, elements.foldlM Layout.insert layout = .ok next ∧
      next.elements.toList = layout.elements.toList ++ elements ∧
      next.flagged = layout.flagged := by
  induction elements generalizing layout with
  | nil => exact ⟨layout, rfl, by simp, rfl⟩
  | cons element elements ih =>
      have hNew : element.path ∉ layout.elements.toList.map Element.path := by
        rw [List.map_append, List.nodup_append] at hNodup
        intro hTaken
        exact hNodup.2.2 _ hTaken _ (List.mem_map_of_mem List.mem_cons_self) rfl
      obtain ⟨placed, hInsert, hElements, hFlagged⟩ := Layout.insert_of_not_mem hNew
      have hPlaced : placed.elements.toList = layout.elements.toList ++ [element] := by
        rw [hElements, Array.toList_push]
      obtain ⟨next, hRest, hAll, hSame⟩ := @ih placed (by
        rw [hPlaced, List.append_assoc, List.singleton_append]
        exact hNodup)
      refine ⟨next, ?_, ?_, hSame.trans hFlagged⟩
      · rw [List.foldlM_cons, hInsert]
        exact hRest
      · rw [hAll, hPlaced, List.append_assoc, List.singleton_append]

theorem layOut_of_nodup {elements : List Element}
    (hNodup : (elements.map Element.path).Nodup) :
    ∃ layout, layOut elements = .ok layout ∧ layout.elements.toList = elements ∧
      layout.flagged = [] :=
  @foldlM_insert_of_nodup Layout.empty elements hNodup

/-- Elements cannot be laid out when one of them is at the path of an earlier one. -/
theorem layOut_of_repeat {before behind : List Element} {element : Element}
    (hNodup : (before.map Element.path).Nodup)
    (hTaken : element.path ∈ before.map Element.path) :
    layOut (before ++ element :: behind) = .error (.duplicateElement element.path.text) := by
  obtain ⟨layout, hLayout, hElements, -⟩ := layOut_of_nodup hNodup
  have hRefused : layout.insert element = .error (.duplicateElement element.path.text) :=
    Layout.insert_of_mem (hElements ▸ hTaken)
  unfold layOut at hLayout ⊢
  rw [List.foldlM_append, hLayout]
  show List.foldlM Layout.insert layout (element :: behind) = _
  rw [List.foldlM_cons, hRefused]
  rfl

/-- Of elements that are not all at different paths, one is the first at the path of an
earlier one. -/
theorem exists_first_repeat {elements : List Element}
    (hRepeat : ¬ (elements.map Element.path).Nodup) :
    ∃ before element behind, elements = before ++ element :: behind ∧
      (before.map Element.path).Nodup ∧ element.path ∈ before.map Element.path := by
  induction elements using List.reverseRecOn with
  | nil => exact absurd List.nodup_nil hRepeat
  | append_singleton elements last ih =>
      by_cases hNodup : (elements.map Element.path).Nodup
      · refine ⟨elements, last, [], rfl, hNodup, ?_⟩
        apply Classical.byContradiction
        intro hNew
        apply hRepeat
        rw [List.map_append, List.nodup_append]
        refine ⟨hNodup, List.nodup_singleton _, ?_⟩
        intro path hMem path' hMem' hSame
        rw [List.map_singleton, List.mem_singleton] at hMem'
        exact hNew (hMem' ▸ hSame ▸ hMem)
      · obtain ⟨before, element, behind, rfl, hBefore, hTaken⟩ := ih hNodup
        exact ⟨before, element, behind ++ [last], by simp, hBefore, hTaken⟩

/-! ## The built sheet -/

/-- The paths that a scene asks to evaluate: those it lists, or else those of the elements
whose item, as listed last, is a formula note. -/
def evaluated (scene : Scene) : List Path :=
  match scene.evaluate with
  | some paths => paths
  | none =>
      (scene.elements.filter (·.showsFormula (ItemStore.last? scene.items))).map Element.path

/-- What the sheet of a scene holds: under each identifier the item that is listed last with
it, the elements as they are listed, and the flags that are asked for. -/
structure IsBuilt (scene : Scene) (sheet : Sheet) : Prop where
  items : sheet.items.get? = ItemStore.last? scene.items
  elements : sheet.layout.elements.toList = scene.elements
  flagged : ∀ path, path ∈ sheet.layout.flagged ↔ path ∈ scene.evaluated

theorem build_of_layOut_error {scene : Scene} {fault : Error}
    (h : layOut scene.elements = .error fault) : scene.build = .error fault := by
  unfold build
  rw [h]
  rfl

theorem build_of_layOut {scene : Scene} {layout : Layout}
    (h : layOut scene.elements = .ok layout) (hElements : layout.elements.toList = scene.elements)
    (hFlagged : layout.flagged = []) : ∃ sheet, scene.build = .ok sheet ∧ scene.IsBuilt sheet := by
  have hItems := ItemStore.get?_ofList scene.items
  unfold build
  rw [h]
  cases hEvaluate : scene.evaluate with
  | some paths =>
      refine ⟨_, rfl, hItems, ?_, ?_⟩
      · show (layout.markAll paths).elements.toList = _
        rw [Layout.elements_markAll, hElements]
      · intro path
        show path ∈ (layout.markAll paths).flagged ↔ _
        rw [Layout.mem_flagged_markAll, hFlagged, evaluated, hEvaluate]
        exact or_iff_right List.not_mem_nil
  | none =>
      refine ⟨_, rfl, hItems, ?_, ?_⟩
      · show (layout.markFormulas (ItemStore.ofList scene.items)).elements.toList = _
        rw [Layout.elements_markFormulas, hElements]
      · intro path
        show path ∈ (layout.markFormulas (ItemStore.ofList scene.items)).flagged ↔ _
        rw [Layout.mem_flagged_markFormulas, hFlagged, hElements, hItems, evaluated, hEvaluate]
        exact or_iff_right List.not_mem_nil

theorem build_of_nodup {scene : Scene} (hNodup : (scene.elements.map Element.path).Nodup) :
    ∃ sheet, scene.build = .ok sheet ∧ scene.IsBuilt sheet := by
  obtain ⟨layout, hLayout, hElements, hFlagged⟩ := layOut_of_nodup hNodup
  exact build_of_layOut hLayout hElements hFlagged

/-- **Refused**: a scene fails exactly at the first element whose path repeats an earlier
one. -/
theorem build_eq_error_iff {scene : Scene} {fault : Error} :
    scene.build = .error fault ↔
      ∃ before element behind, scene.elements = before ++ element :: behind ∧
        (before.map Element.path).Nodup ∧ element.path ∈ before.map Element.path ∧
        fault = .duplicateElement element.path.text := by
  constructor
  · intro hBuild
    have hRepeat : ¬ (scene.elements.map Element.path).Nodup := by
      intro hNodup
      obtain ⟨sheet, hOk, -⟩ := build_of_nodup hNodup
      rw [hBuild] at hOk
      cases hOk
    obtain ⟨before, element, behind, hElements, hBefore, hTaken⟩ := exists_first_repeat hRepeat
    refine ⟨before, element, behind, hElements, hBefore, hTaken, ?_⟩
    rw [build_of_layOut_error (hElements ▸ layOut_of_repeat hBefore hTaken)] at hBuild
    exact (Except.error.inj hBuild).symm
  · rintro ⟨before, element, behind, hElements, hBefore, hTaken, rfl⟩
    exact build_of_layOut_error (hElements ▸ layOut_of_repeat hBefore hTaken)

theorem isBuilt_of_build {scene : Scene} {sheet : Sheet} (h : scene.build = .ok sheet) :
    scene.IsBuilt sheet := by
  by_cases hNodup : (scene.elements.map Element.path).Nodup
  · obtain ⟨built, hOk, hBuilt⟩ := build_of_nodup hNodup
    rw [h] at hOk
    cases hOk
    exact hBuilt
  · obtain ⟨before, element, behind, hElements, hBefore, hTaken⟩ := exists_first_repeat hNodup
    have hError := build_eq_error_iff.mpr ⟨before, element, behind, hElements, hBefore, hTaken, rfl⟩
    rw [h] at hError
    cases hError

/-! ## What does not matter -/

/-- Changes to a scene that do not show: the paths to evaluate are listed in another order or
more often, items change places while those of one identifier keep their order, and an item is
left out that a later one replaces. -/
inductive Rearranged : Scene → Scene → Prop
  | evaluate {items : List Item} {elements : List Element} {paths paths' : List Path}
      (hSame : ∀ path, path ∈ paths ↔ path ∈ paths') :
      Rearranged ⟨items, elements, some paths⟩ ⟨items, elements, some paths'⟩
  | reorder {items items' : List Item} {elements : List Element} {paths : Option (List Path)}
      (hSame : ∀ id, items.filter (·.id == id) = items'.filter (·.id == id)) :
      Rearranged ⟨items, elements, paths⟩ ⟨items', elements, paths⟩
  | drop {before behind : List Item} {item : Item} {elements : List Element}
      {paths : Option (List Path)} (hReplaced : item.id ∈ behind.map Item.id) :
      Rearranged ⟨before ++ item :: behind, elements, paths⟩ ⟨before ++ behind, elements, paths⟩

/-- Scenes whose sheets hold the same. -/
structure Equivalent (first second : Scene) : Prop where
  items : ItemStore.last? first.items = ItemStore.last? second.items
  elements : first.elements = second.elements
  evaluated : ∀ path, path ∈ first.evaluated ↔ path ∈ second.evaluated

namespace Equivalent

variable {first second third : Scene}

/-- Scenes with the same elements and the same paths to evaluate, if those are listed, and the
same last items are equivalent. -/
theorem of_items {items items' : List Item} {elements : List Element}
    {paths : Option (List Path)} (hItems : ItemStore.last? items = ItemStore.last? items') :
    Equivalent ⟨items, elements, paths⟩ ⟨items', elements, paths⟩ where
  items := hItems
  elements := rfl
  evaluated path := by
    cases paths with
    | some paths => exact Iff.rfl
    | none =>
        unfold Scene.evaluated
        dsimp only
        rw [hItems]

/-- A change that does not show leaves an equivalent scene. -/
theorem of_rearranged (h : Rearranged first second) : first.Equivalent second := by
  cases h with
  | evaluate hSame => exact ⟨rfl, rfl, hSame⟩
  | reorder hSame =>
      apply of_items
      funext id
      rw [← ItemStore.last?_filter, hSame, ItemStore.last?_filter]
  | @drop before behind item elements paths hReplaced =>
      apply of_items
      funext id
      rw [ItemStore.last?_append, ItemStore.last?_append, ← List.singleton_append,
        ItemStore.last?_append]
      cases hBehind : ItemStore.last? behind id with
      | some later => rfl
      | none =>
          have hOther : item.id ≠ id := fun hId =>
            ItemStore.last?_eq_none_iff.mp hBehind (hId ▸ hReplaced)
          simp [ItemStore.last?, hOther]

theorem of_eqvGen (h : Relation.EqvGen Rearranged first second) : first.Equivalent second := by
  induction h with
  | rel first second h => exact of_rearranged h
  | refl first => exact ⟨rfl, rfl, fun _ => Iff.rfl⟩
  | symm first second _ ih =>
      exact ⟨ih.items.symm, ih.elements.symm, fun path => (ih.evaluated path).symm⟩
  | trans first second third _ _ ih ih' =>
      exact ⟨ih.items.trans ih'.items, ih.elements.trans ih'.elements,
        fun path => (ih.evaluated path).trans (ih'.evaluated path)⟩

/-- The sheets of equivalent scenes hold the same. -/
theorem sameContent (h : first.Equivalent second) {sheet sheet' : Sheet}
    (hBuilt : first.IsBuilt sheet) (hBuilt' : second.IsBuilt sheet') :
    sheet.SameContent sheet' where
  items := hBuilt.items.trans (h.items.trans hBuilt'.items.symm)
  elements := by
    apply Array.toList_inj.mp
    rw [hBuilt.elements, hBuilt'.elements, h.elements]
  flagged path := by rw [hBuilt.flagged, hBuilt'.flagged, h.evaluated]

end Equivalent

/-- **A faithful fold**: a scene can be built exactly when its elements are at different paths,
and is otherwise refused at the first one whose path repeats an earlier one. The sheet holds
under each identifier the item that is listed last with it, the elements as they are listed,
and flags where evaluation is asked for. Changes to the scene that do not show leave the
refusal, and what a recalculation shows and counts, as they were. -/
theorem build_isFaithful (scene : Scene) :
    ((∃ sheet, scene.build = .ok sheet) ↔ (scene.elements.map Element.path).Nodup) ∧
      (∀ fault, scene.build = .error fault ↔
        ∃ before element behind, scene.elements = before ++ element :: behind ∧
          (before.map Element.path).Nodup ∧ element.path ∈ before.map Element.path ∧
          fault = .duplicateElement element.path.text) ∧
      (∀ sheet, scene.build = .ok sheet → scene.IsBuilt sheet) ∧
      ∀ other, Relation.EqvGen Rearranged scene other →
        (∀ fault, scene.build = .error fault ↔ other.build = .error fault) ∧
        ∀ sheet sheet', scene.build = .ok sheet → other.build = .ok sheet' →
          ∀ filter order order', order.Perm sheet.layout.flagged →
            order'.Perm sheet'.layout.flagged →
              (sheet.recalculateIn filter order).1.layout.elements =
                  (sheet'.recalculateIn filter order').1.layout.elements ∧
                (sheet.recalculateIn filter order).2 = (sheet'.recalculateIn filter order').2 := by
  refine ⟨⟨?_, ?_⟩, fun _ => build_eq_error_iff, fun _ => isBuilt_of_build, ?_⟩
  · rintro ⟨sheet, hBuild⟩
    have hBuilt := isBuilt_of_build hBuild
    rw [← hBuilt.elements]
    exact sheet.layout.nodup_paths
  · intro hNodup
    obtain ⟨sheet, hBuild, -⟩ := build_of_nodup hNodup
    exact ⟨sheet, hBuild⟩
  · intro other hChanged
    have hEquivalent := Equivalent.of_eqvGen hChanged
    constructor
    · intro fault
      rw [build_eq_error_iff, build_eq_error_iff, hEquivalent.elements]
    · intro sheet sheet' hBuild hBuild' filter order order' hOrder hOrder'
      have hSame := hEquivalent.sameContent (isBuilt_of_build hBuild) (isBuilt_of_build hBuild')
      exact hSame.recalculateIn_eq filter hOrder hOrder'

end Scene

end NoteSheet
