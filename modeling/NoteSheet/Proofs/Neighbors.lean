import Mathlib.Data.List.Induction
import NoteSheet.Proofs.Doubles
import NoteSheet.Proofs.Histories
import NoteSheet.Proofs.Hops

/-!
# The nearest neighbor

A search goes once through the siblings of an element and keeps the best one so far. Here it is
shown to end with the first of those at the least distance: `Knows` says what the search knows
after some of its candidates, one more candidate keeps that (`Knows.next`), and so do all
(`knows_foldl`).

An element qualifies for a search (`Element.Qualifies`) by what is placed and by the edges of
two boxes alone, so that elements which do not qualify may come, go and move about
(`Undisturbed`) without any effect. Main statement: `neighbor?_isFirstNearest`.
-/

namespace NoteSheet

/-! ## The least distance -/

section Nearest

variable {α : Type} {distance : α → Float} {candidates : List α}

/-- The first of some candidates at the least distance: nearer than all before it, and not
farther than any behind it. -/
def FirstNearest (distance : α → Float) (candidates : List α) (found : α) : Prop :=
  ∃ before behind, candidates = before ++ found :: behind ∧
    (∀ other ∈ before, distance found < distance other) ∧
    ∀ other ∈ behind, distance found ≤ distance other

namespace FirstNearest

variable {found candidate : α}

theorem mem (h : FirstNearest distance candidates found) : found ∈ candidates := by
  obtain ⟨before, behind, rfl, -, -⟩ := h
  simp

/-- A candidate that is not nearer comes too late. -/
theorem keep (h : FirstNearest distance candidates found)
    (hFarther : distance found ≤ distance candidate) :
    FirstNearest distance (candidates ++ [candidate]) found := by
  obtain ⟨before, behind, rfl, hBefore, hBehind⟩ := h
  refine ⟨before, behind ++ [candidate], by simp, hBefore, ?_⟩
  intro other hMem
  rcases List.mem_append.mp hMem with hMem | hMem
  · exact hBehind other hMem
  · rw [List.mem_singleton.mp hMem]
    exact hFarther

/-- A candidate that is nearer is nearer than all before it. -/
theorem replace (h : FirstNearest distance candidates found)
    (hNearer : distance candidate < distance found) :
    FirstNearest distance (candidates ++ [candidate]) candidate := by
  obtain ⟨before, behind, rfl, hBefore, hBehind⟩ := h
  refine ⟨before ++ found :: behind, [], rfl, ?_, by simp⟩
  intro other hMem
  rcases List.mem_append.mp hMem with hMem | hMem
  · exact Number.lt_trans hNearer (hBefore other hMem)
  · rcases List.mem_cons.mp hMem with rfl | hMem
    · exact hNearer
    · exact Number.lt_of_lt_of_le hNearer (hBehind other hMem)

end FirstNearest

/-- What a search knows after some candidates: the first nearest of them with its distance, if
there are any. -/
def Knows (distance : α → Float) (candidates : List α) : Option (α × Float) → Prop
  | none => candidates = []
  | some (found, least) => least = distance found ∧ FirstNearest distance candidates found

/-- **Step**: a search that knows the first nearest of some candidates knows it after one more. -/
theorem Knows.next {best : Option (α × Float)} {candidate : α}
    (h : Knows distance candidates best)
    (hNumbers : ∀ other ∈ candidates ++ [candidate], distance other ≠ Number.nan) :
    Knows distance (candidates ++ [candidate]) (nearer distance best candidate) := by
  cases best with
  | none =>
      obtain rfl : candidates = [] := h
      exact ⟨rfl, [], [], rfl, by simp, by simp⟩
  | some pair =>
      obtain ⟨found, least⟩ := pair
      obtain ⟨rfl, hFound⟩ := h
      unfold nearer
      dsimp only
      by_cases hLe : distance found ≤ distance candidate
      · rw [if_pos hLe]
        exact ⟨rfl, hFound.keep hLe⟩
      · rw [if_neg hLe]
        have hNearer : distance candidate < distance found :=
          Number.lt_of_not_le (hNumbers candidate (by simp))
            (hNumbers found (List.mem_append_left _ hFound.mem)) hLe
        exact ⟨rfl, hFound.replace hNearer⟩

/-- **Run**: a search among candidates at distances that are numbers knows the first nearest of
them. -/
theorem knows_foldl (hNumbers : ∀ other ∈ candidates, distance other ≠ Number.nan) :
    Knows distance candidates (candidates.foldl (nearer distance) none) := by
  induction candidates using List.reverseRecOn with
  | nil => exact rfl
  | append_singleton candidates candidate ih =>
      rw [List.foldl_concat]
      exact (ih fun other hMem => hNumbers other (List.mem_append_left _ hMem)).next hNumbers

theorem firstNearest_of_nearest? {found : α} (h : nearest? distance candidates = some found)
    (hNumbers : ∀ other ∈ candidates, distance other ≠ Number.nan) :
    FirstNearest distance candidates found := by
  have hKnows := knows_foldl hNumbers
  obtain ⟨pair, hPair, rfl⟩ := Option.map_eq_some_iff.mp h
  rw [hPair] at hKnows
  exact hKnows.2

theorem nearer_ne_none (best : Option (α × Float)) (candidate : α) :
    nearer distance best candidate ≠ none := by
  unfold nearer
  cases best with
  | none => exact Option.some_ne_none _
  | some pair =>
      dsimp only
      split <;> exact Option.some_ne_none _

/-- A search finds nothing only where there is nothing. -/
theorem nearest?_eq_none_iff : nearest? distance candidates = none ↔ candidates = [] := by
  constructor
  · intro h
    rcases List.eq_nil_or_concat candidates with hNil | ⟨before, last, hConcat⟩
    · exact hNil
    · unfold nearest? at h
      rw [hConcat, List.concat_eq_append, List.foldl_concat, Option.map_eq_none_iff] at h
      exact absurd h (nearer_ne_none _ last)
  · rintro rfl
    rfl

end Nearest

/-! ## What qualifies -/

/-- What a search from a placed element may land on: another element with the same parent that
is no detached copy, that the filter admits, and whose box the direction accepts. -/
structure Element.Qualifies (origin : Element) (direction : Direction) (filter : Filter)
    (candidate : Element) : Prop where
  other : candidate.path ≠ origin.path
  beside : candidate.path.parent? = origin.path.parent?
  attached : candidate.popup = false
  admitted : filter.admits candidate = true
  accepted : direction.accepts origin.box candidate.box = true

section Qualifying

variable {origin candidate : Element} {direction : Direction} {filter : Filter}

theorem Element.qualifies_iff :
    origin.Qualifies direction filter candidate ↔
      candidate.path.isSibling origin.path = true ∧
        origin.isCandidate candidate direction filter = true := by
  unfold Path.isSibling Element.isCandidate
  simp only [Bool.and_eq_true, bne_iff_ne, beq_iff_eq, Bool.not_eq_true']
  constructor
  · rintro ⟨hOther, hBeside, hAttached, hAdmitted, hAccepted⟩
    exact ⟨⟨hOther, hBeside⟩, ⟨hAttached, hAdmitted⟩, hAccepted⟩
  · rintro ⟨⟨hOther, hBeside⟩, ⟨hAttached, hAdmitted⟩, hAccepted⟩
    exact ⟨hOther, hBeside, hAttached, hAdmitted, hAccepted⟩

instance : Decidable (origin.Qualifies direction filter candidate) :=
  decidable_of_iff _ Element.qualifies_iff.symm

/-- The candidates of a search are the elements that qualify. -/
theorem Layout.candidates_eq (layout : Layout) (origin : Element) (direction : Direction)
    (filter : Filter) :
    layout.candidates origin direction filter =
      layout.elements.toList.filter fun element => origin.Qualifies direction filter element := by
  unfold candidates siblings
  rw [List.filter_filter]
  apply List.filter_congr
  intro element _
  rw [Bool.eq_iff_iff, Bool.and_eq_true, decide_eq_true_eq, Element.qualifies_iff, and_comm]

/-- Two lists of elements, each with the element at which a search starts, that differ in
elements only that do not qualify for it. What qualifies has the same path and the same box in
both lists, and the same order. -/
inductive Undisturbed (direction : Direction) (filter : Filter) (origin origin' : Element) :
    List Element → List Element → Prop
  | nil : Undisturbed direction filter origin origin' [] []
  | kept {element element' : Element} {elements elements' : List Element}
      (before : origin.Qualifies direction filter element)
      (after : origin'.Qualifies direction filter element')
      (path : element'.path = element.path) (box : element'.box = element.box)
      (others : Undisturbed direction filter origin origin' elements elements') :
      Undisturbed direction filter origin origin' (element :: elements) (element' :: elements')
  | removed {element : Element} {elements elements' : List Element}
      (before : ¬ origin.Qualifies direction filter element)
      (others : Undisturbed direction filter origin origin' elements elements') :
      Undisturbed direction filter origin origin' (element :: elements) elements'
  | added {element' : Element} {elements elements' : List Element}
      (after : ¬ origin'.Qualifies direction filter element')
      (others : Undisturbed direction filter origin origin' elements elements') :
      Undisturbed direction filter origin origin' elements (element' :: elements')

/-- Where an element is placed. -/
def Element.place (element : Element) : Path × Box := (element.path, element.box)

/-- What qualifies is placed alike in lists that differ in other elements only. -/
theorem Undisturbed.places_eq {origin' : Element} {elements elements' : List Element}
    (h : Undisturbed direction filter origin origin' elements elements') :
    (elements'.filter fun element => origin'.Qualifies direction filter element).map
        Element.place =
      (elements.filter fun element => origin.Qualifies direction filter element).map
        Element.place := by
  induction h with
  | nil => rfl
  | @kept element element' elements elements' before after path box others ih =>
      have hPlace : element'.place = element.place := Prod.ext path box
      rw [List.filter_cons, List.filter_cons, if_pos (decide_eq_true before),
        if_pos (decide_eq_true after), List.map_cons, List.map_cons, ih, hPlace]
  | removed before others ih =>
      rw [ih, List.filter_cons, if_neg (by simpa using before)]
  | added after others ih =>
      rw [List.filter_cons, if_neg (by simpa using after), ih]

end Qualifying

/-! ## What a search finds -/

namespace Layout

variable {layout : Layout} {direction : Direction} {filter : Filter} {path : Path}
  {origin : Element}

theorem neighbor?_of_elementAt? (hOrigin : layout.elementAt? path = some origin) :
    layout.neighbor? direction filter path =
      (nearest? origin.distance (layout.candidates origin direction filter)).map
        Element.path := by
  unfold neighbor?
  rw [hOrigin]
  show (nearest? origin.distance (layout.candidates origin direction filter)).bind
    (fun found => some found.path) = _
  cases nearest? origin.distance (layout.candidates origin direction filter) <;> rfl

/-- A search finds nothing exactly where nothing is placed to start from, or nothing qualifies. -/
theorem neighbor?_eq_none_iff :
    layout.neighbor? direction filter path = none ↔
      ∀ origin, layout.elementAt? path = some origin →
        ∀ element ∈ layout.elements.toList, ¬ origin.Qualifies direction filter element := by
  cases hOrigin : layout.elementAt? path with
  | none =>
      have hNone : layout.neighbor? direction filter path = none := by
        unfold neighbor?
        rw [hOrigin]
        rfl
      simp [hNone]
  | some origin =>
      rw [neighbor?_of_elementAt? hOrigin, Option.map_eq_none_iff, nearest?_eq_none_iff,
        candidates_eq, List.filter_eq_nil_iff]
      simp

/-- The element is, in layout order, the first at the least distance of those that qualify. -/
def IsFirstNearest (layout : Layout) (origin : Element) (direction : Direction) (filter : Filter)
    (found : Element) : Prop :=
  ∃ earlier later, layout.elements.toList = earlier ++ found :: later ∧
    (∀ other ∈ earlier, origin.Qualifies direction filter other →
      origin.distance found < origin.distance other) ∧
    ∀ other ∈ later, origin.Qualifies direction filter other →
      origin.distance found ≤ origin.distance other

/-- The first nearest candidate is the first nearest of all that qualifies. -/
theorem isFirstNearest_of_firstNearest {found : Element}
    (h : FirstNearest origin.distance (layout.candidates origin direction filter) found) :
    layout.IsFirstNearest origin direction filter found := by
  obtain ⟨before, behind, hCandidates, hBefore, hBehind⟩ := h
  rw [candidates_eq] at hCandidates
  obtain ⟨earlier, others, hElements, hEarlier, hOthers⟩ := List.filter_eq_append_iff.mp hCandidates
  obtain ⟨between, later, rfl, hBetween, -, hLater⟩ := List.filter_eq_cons_iff.mp hOthers
  refine ⟨earlier ++ between, later, by rw [hElements, List.append_assoc], ?_, ?_⟩
  · intro other hMem hQualifies
    rcases List.mem_append.mp hMem with hMem | hMem
    · refine hBefore other ?_
      rw [← hEarlier]
      exact List.mem_filter.mpr ⟨hMem, decide_eq_true hQualifies⟩
    · exact absurd (decide_eq_true hQualifies) (hBetween other hMem)
  · intro other hMem hQualifies
    refine hBehind other ?_
    rw [← hLater]
    exact List.mem_filter.mpr ⟨hMem, decide_eq_true hQualifies⟩

/-- What a search finds qualifies, and it is the first nearest where the distances are numbers. -/
theorem exists_of_neighbor? {next : Path} (hOrigin : layout.elementAt? path = some origin)
    (h : layout.neighbor? direction filter path = some next) :
    ∃ found ∈ layout.elements.toList, found.path = next ∧
      origin.Qualifies direction filter found ∧
      ((∀ other ∈ layout.elements.toList, origin.Qualifies direction filter other →
          origin.distance other ≠ Number.nan) →
        layout.IsFirstNearest origin direction filter found) := by
  rw [neighbor?_of_elementAt? hOrigin] at h
  obtain ⟨found, hFound, rfl⟩ := Option.map_eq_some_iff.mp h
  have hCandidate := mem_of_nearest? hFound
  rw [candidates_eq] at hCandidate
  obtain ⟨hMem, hQualifies⟩ := List.mem_filter.mp hCandidate
  refine ⟨found, hMem, rfl, of_decide_eq_true hQualifies, ?_⟩
  intro hNumbers
  apply isFirstNearest_of_firstNearest
  apply firstNearest_of_nearest? hFound
  intro other hOther
  rw [candidates_eq] at hOther
  obtain ⟨hPlaced, hQualifies⟩ := List.mem_filter.mp hOther
  exact hNumbers other hPlaced (of_decide_eq_true hQualifies)

/-- A search finds the same where the elements differ in such only that do not qualify. -/
theorem neighbor?_of_undisturbed {other : Layout} {origin' : Element}
    (hOrigin : layout.elementAt? path = some origin)
    (hOrigin' : other.elementAt? path = some origin') (hBox : origin'.box = origin.box)
    (hOthers : Undisturbed direction filter origin origin' layout.elements.toList
      other.elements.toList) :
    other.neighbor? direction filter path = layout.neighbor? direction filter path := by
  -- A distance is one between places.
  let distance (place : Path × Box) : Float := origin.box.center.distance place.2.center
  have hDistance (element : Element) : distance element.place = origin.distance element := rfl
  have hDistance' (element : Element) : distance element.place = origin'.distance element := by
    unfold Element.distance
    rw [hBox]
    rfl
  have hPath : Element.path = Prod.fst ∘ Element.place := rfl
  rw [neighbor?_of_elementAt? hOrigin, neighbor?_of_elementAt? hOrigin', hPath,
    ← Option.map_map, ← Option.map_map, nearest?_map hDistance, nearest?_map hDistance',
    candidates_eq, candidates_eq, hOthers.places_eq]

/-- **The first nearest that qualifies.** A search finds nothing exactly where its start is not
placed or nothing qualifies, and otherwise an element that qualifies. Where the distances to all
that qualify are numbers, it is the first in layout order of those at the least distance. What
does not qualify may be added, moved or removed: as long as the start keeps its box, and what
qualifies its boxes and its order, the same is found. -/
theorem neighbor?_isFirstNearest (layout : Layout) (path : Path) (direction : Direction)
    (filter : Filter) :
    (layout.neighbor? direction filter path = none ↔
      layout.elementAt? path = none ∨ ∃ origin, layout.elementAt? path = some origin ∧
        ∀ element ∈ layout.elements.toList, ¬ origin.Qualifies direction filter element) ∧
    (∀ next, layout.neighbor? direction filter path = some next →
      ∃ origin, layout.elementAt? path = some origin ∧
        ∃ found ∈ layout.elements.toList, found.path = next ∧
          origin.Qualifies direction filter found ∧
          ((∀ other ∈ layout.elements.toList, origin.Qualifies direction filter other →
              origin.distance other ≠ Number.nan) →
            layout.IsFirstNearest origin direction filter found)) ∧
    ∀ (other : Layout) (origin origin' : Element), layout.elementAt? path = some origin →
      other.elementAt? path = some origin' → origin'.box = origin.box →
      Undisturbed direction filter origin origin' layout.elements.toList
        other.elements.toList →
      other.neighbor? direction filter path = layout.neighbor? direction filter path := by
  refine ⟨?_, ?_, ?_⟩
  · rw [neighbor?_eq_none_iff]
    cases layout.elementAt? path <;> simp
  · intro next hNext
    obtain ⟨origin, -, hOrigin, -⟩ := landed_of_neighbor? hNext
    exact ⟨origin, hOrigin, exists_of_neighbor? hOrigin hNext⟩
  · intro other origin origin' hOrigin hOrigin' hBox hOthers
    exact neighbor?_of_undisturbed hOrigin hOrigin' hBox hOthers

/-! ## The nearest of several -/

/-- A note with some number and box inside one page. -/
def note (number : Nat) (box : Box) : Element where
  path := (Path.root (Uid.ofNat 1)).child (Uid.ofNat number)
  item := Uid.ofNat number
  kind := .note
  box := box

/-- The layout that places some elements in their order. -/
def placing (elements : List Element) : Layout :=
  elements.foldl (fun layout element => (layout.insert element).toOption.getD layout) .empty

/-- Elements with different paths are all placed. -/
theorem elements_placing {elements : List Element} (h : (elements.map Element.path).Nodup) :
    (placing elements).elements.toList = elements := by
  induction elements using List.reverseRecOn with
  | nil => rfl
  | append_singleton elements element ih =>
      rw [List.map_append, List.nodup_append] at h
      obtain ⟨hBefore, -, hApart⟩ := h
      have hNew : element.path ∉ (placing elements).elements.toList.map Element.path := by
        rw [ih hBefore]
        exact fun hMem => hApart _ hMem _ (by simp) rfl
      obtain ⟨next, hInsert, hElements, -⟩ := insert_of_not_mem hNew
      unfold placing
      rw [List.foldl_append, List.foldl_cons, List.foldl_nil]
      show (((placing elements).insert element).toOption.getD _).elements.toList = _
      rw [hInsert]
      show next.elements.toList = _
      rw [hElements, Array.toList_push, ih hBefore]

/-- A note with two others at one distance below it, one farther below, and one to its right. -/
def tie : List Element :=
  [note 2 ⟨10, 0, 10, 10⟩, note 6 ⟨10, 50, 10, 10⟩, note 3 ⟨6, 20, 10, 10⟩,
    note 4 ⟨40, 0, 10, 10⟩, note 5 ⟨14, 20, 10, 10⟩]

/-- The same note, placed behind those below it, while the one to its right has moved above. -/
def tieAmongOthers : List Element :=
  [note 4 ⟨10, -40, 10, 10⟩, note 6 ⟨10, 50, 10, 10⟩, note 3 ⟨6, 20, 10, 10⟩,
    note 5 ⟨14, 20, 10, 10⟩, note 2 ⟨10, 0, 10, 10⟩]

/-- Of the two nearest notes below, the one that was placed first is found, whatever is beside
them, and although the one farther below was placed before both. -/
theorem neighbor?_isFirstNearest_tie :
    let origin := note 2 ⟨10, 0, 10, 10⟩
    let first := note 3 ⟨6, 20, 10, 10⟩
    (placing tie).IsFirstNearest origin .down .anything first ∧
      (placing tieAmongOthers).neighbor? .down .anything origin.path = some first.path ∧
      origin.distance first = Float.sqrt (4 * 4 + 20 * 20) ∧
      origin.distance (note 5 ⟨14, 20, 10, 10⟩) = origin.distance first ∧
      origin.Qualifies .down .anything (note 6 ⟨10, 50, 10, 10⟩) ∧
      origin.distance first < origin.distance (note 6 ⟨10, 50, 10, 10⟩) := by
  intro origin first
  have hElements : (placing tie).elements.toList = tie := elements_placing (by decide +kernel)
  have hElements' : (placing tieAmongOthers).elements.toList = tieAmongOthers :=
    elements_placing (by decide +kernel)
  have hAt (element : Element) (hMem : element ∈ tie) :
      (placing tie).elementAt? element.path = some element := by
    rw [← hElements] at hMem
    exact elementAt?_of_mem (Array.mem_toList_iff.mp hMem)
  have hAt' : (placing tieAmongOthers).elementAt? origin.path = some origin := by
    apply elementAt?_of_mem
    rw [← Array.mem_toList_iff, hElements']
    simp [tieAmongOthers, origin]
  have hOrigin := hAt origin (by simp [tie, origin])
  have hFound : (placing tie).neighbor? .down .anything origin.path = some first.path := by
    rw [neighbor?_of_elementAt? hOrigin, candidates_eq, hElements]
    decide +kernel
  have hNumbers : ∀ other ∈ (placing tie).elements.toList,
      origin.Qualifies .down .anything other → origin.distance other ≠ Number.nan := by
    rw [hElements]
    decide +kernel
  have hOthers : Undisturbed .down .anything origin origin
      (placing tie).elements.toList (placing tieAmongOthers).elements.toList := by
    rw [hElements, hElements']
    refine .removed (by decide +kernel) (.added (by decide +kernel) ?_)
    refine .kept (by decide +kernel) (by decide +kernel) rfl rfl ?_
    refine .kept (by decide +kernel) (by decide +kernel) rfl rfl (.removed (by decide +kernel) ?_)
    refine .kept (by decide +kernel) (by decide +kernel) rfl rfl ?_
    exact .added (by decide +kernel) .nil
  have hDistance : origin.distance first = Float.sqrt (4 * 4 + 20 * 20) :=
    (Element.distance_eq origin first).trans (congrArg Float.sqrt (by decide +kernel))
  obtain ⟨-, hNearest, hSame⟩ := neighbor?_isFirstNearest (placing tie) origin.path .down .anything
  refine ⟨?_, (hSame _ _ _ hOrigin hAt' rfl hOthers).trans hFound, hDistance,
    by decide +kernel, by decide +kernel, by decide +kernel⟩
  obtain ⟨start, hPlaced, found, hMem, hPath, -, hFirst⟩ := hNearest _ hFound
  obtain rfl := Option.some.inj (hOrigin.symm.trans hPlaced)
  have hFoundAt := hAt found (hElements ▸ hMem)
  rw [hPath, hAt first (by simp [tie, first])] at hFoundAt
  rw [Option.some.inj hFoundAt]
  exact hFirst hNumbers

end Layout

end NoteSheet
