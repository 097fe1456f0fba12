import Mathlib.Data.List.Nodup
import NoteSheet.Proofs.Circles
import NoteSheet.Proofs.NumberOrder

/-!
# Hops in one direction

A relative reference hops from neighbor to neighbor in one direction. Boxes that are wider
(or, up and down, higher) than the slack with which edges are compared are left behind by
every hop, so that hops never come back to where they have been, and there are fewer of
them than elements (`hop?_ne_of_lt`, `hop?_eq_none_of_size_le`).

Boxes as narrow as the slack can be each other's neighbors in one and the same direction,
and then hops go back and forth between them for ever (`readReference_of_narrow`).

Main statement: `readReference_oversized`, that where every box on which a hop may land
clears the slack, a reference of at least as many steps as there are elements reads zero.
-/

namespace NoteSheet

/-! ## One hop -/

section Nearest

variable {α : Type} {distance : α → Float} {candidates : List α}

/-- A search that goes on from a best candidate ends with it or with one of the others. -/
theorem mem_of_foldl_nearer {best : Option (α × Float)} {pair : α × Float}
    (h : candidates.foldl (nearer distance) best = some pair) :
    best = some pair ∨ pair.1 ∈ candidates := by
  induction candidates generalizing best with
  | nil => exact .inl h
  | cons candidate candidates ih =>
      have hStep : nearer distance best candidate = best ∨
          nearer distance best candidate = some (candidate, distance candidate) := by
        unfold nearer
        cases best with
        | none => exact .inr rfl
        | some least =>
            dsimp only
            split
            · exact .inl rfl
            · exact .inr rfl
      rcases ih h with hBest | hMem
      · rcases hStep with hSame | hNew
        · exact .inl (hSame ▸ hBest)
        · rw [hNew] at hBest
          cases hBest
          exact .inr List.mem_cons_self
      · exact .inr (List.mem_cons_of_mem candidate hMem)

/-- The nearest of some candidates is one of them. -/
theorem mem_of_nearest? {found : α} (h : nearest? distance candidates = some found) :
    found ∈ candidates := by
  obtain ⟨pair, hPair, rfl⟩ := Option.map_eq_some_iff.mp h
  exact (mem_of_foldl_nearer hPair).resolve_left (by simp)

end Nearest

namespace Direction

/-- Whether a box reaches further along a direction than its edges may miss others. -/
def clears (direction : Direction) (box : Box) : Bool :=
  match direction with
  | left | right => box.x < box.right - slack
  | up | down => box.y < box.bottom - slack

/-- The second box lies beyond the first, by their left or their upper edges. -/
def Beyond (direction : Direction) (first second : Box) : Prop :=
  match direction with
  | left => second.x < first.x
  | right => first.x < second.x
  | up => second.y < first.y
  | down => first.y < second.y

theorem beyond_irrefl (direction : Direction) (box : Box) : ¬ direction.Beyond box box := by
  cases direction <;> exact Number.lt_irrefl _

theorem Beyond.trans {direction : Direction} {first second third : Box}
    (h : direction.Beyond first second) (h' : direction.Beyond second third) :
    direction.Beyond first third := by
  cases direction with
  | left => exact Number.lt_trans h' h
  | right => exact Number.lt_trans h h'
  | up => exact Number.lt_trans h' h
  | down => exact Number.lt_trans h h'

/-- A box that is accepted lies beyond the other one, if both clear the slack. -/
theorem beyond_of_accepts {direction : Direction} {origin candidate : Box}
    (hOrigin : direction.clears origin = true) (hCandidate : direction.clears candidate = true)
    (hAccepts : direction.accepts origin candidate = true) :
    direction.Beyond origin candidate := by
  cases direction with
  | left =>
      have hEdge := (Bool.and_eq_true_iff.mp hAccepts).1
      exact Number.lt_of_lt_of_le (of_decide_eq_true hCandidate) (of_decide_eq_true hEdge)
  | right =>
      have hEdge := (Bool.and_eq_true_iff.mp hAccepts).1
      exact Number.lt_of_lt_of_le (of_decide_eq_true hOrigin) (of_decide_eq_true hEdge)
  | up =>
      have hEdge := (Bool.and_eq_true_iff.mp hAccepts).1
      exact Number.lt_of_lt_of_le (of_decide_eq_true hCandidate) (of_decide_eq_true hEdge)
  | down =>
      have hEdge := (Bool.and_eq_true_iff.mp hAccepts).1
      exact Number.lt_of_lt_of_le (of_decide_eq_true hOrigin) (of_decide_eq_true hEdge)

end Direction

namespace Layout

/-- Where a hop has landed: at a placed element next to its siblings, which is no detached
copy and which the filter admits. -/
structure Landed (layout : Layout) (filter : Filter) (parent : Option Path) (path : Path)
    (element : Element) : Prop where
  elementAt? : layout.elementAt? path = some element
  parent? : path.parent? = parent
  popup : element.popup = false
  admits : filter.admits element = true

/-- A hop starts at a placed element, lands at one with the same parent, and the direction
accepts the second from the first. -/
theorem landed_of_neighbor? {layout : Layout} {direction : Direction} {filter : Filter}
    {path next : Path} (h : layout.neighbor? direction filter path = some next) :
    ∃ origin found, layout.elementAt? path = some origin ∧
      layout.Landed filter path.parent? next found ∧
      direction.accepts origin.box found.box = true := by
  obtain ⟨origin, hOrigin, h⟩ := Option.bind_eq_some_iff.mp h
  obtain ⟨found, hFound, h⟩ := Option.bind_eq_some_iff.mp h
  obtain rfl := Option.some.inj h
  obtain ⟨hSibling, hCandidate⟩ := List.mem_filter.mp (mem_of_nearest? hFound)
  obtain ⟨hElement, hParent⟩ := List.mem_filter.mp hSibling
  simp only [Element.isCandidate, Bool.and_eq_true, Bool.not_eq_true'] at hCandidate
  simp only [Path.isSibling, Bool.and_eq_true, beq_iff_eq, path_of_elementAt? hOrigin] at hParent
  refine ⟨origin, found, hOrigin, ⟨?_, hParent.2, hCandidate.1.1, hCandidate.1.2⟩, hCandidate.2⟩
  exact elementAt?_of_mem (by simpa using hElement)

/-! ## Chains of hops -/

section Chains

variable {layout : Layout} {direction : Direction} {filter : Filter}

theorem hop?_succ (layout : Layout) (direction : Direction) (filter : Filter) (steps : Nat)
    (path : Path) :
    layout.hop? direction filter (steps + 1) path =
      (layout.neighbor? direction filter path).bind (layout.hop? direction filter steps) := by
  rw [hop?]
  cases layout.neighbor? direction filter path <;> rfl

/-- The first of some hops leads to a neighbor, and the others go on from there. -/
theorem exists_neighbor?_of_hop? {steps : Nat} {path last : Path}
    (h : layout.hop? direction filter (steps + 1) path = some last) :
    ∃ next, layout.neighbor? direction filter path = some next ∧
      layout.hop? direction filter steps next = some last := by
  rw [hop?_succ] at h
  exact Option.bind_eq_some_iff.mp h

/-- Hops go on from where other hops have led. -/
theorem hop?_add (layout : Layout) (direction : Direction) (filter : Filter) (first more : Nat)
    (path : Path) :
    layout.hop? direction filter (first + more) path =
      (layout.hop? direction filter first path).bind (layout.hop? direction filter more) := by
  induction first generalizing path with
  | zero =>
      rw [Nat.zero_add]
      rfl
  | succ first ih =>
      rw [Nat.succ_add, hop?_succ, hop?_succ]
      cases layout.neighbor? direction filter path with
      | none => rfl
      | some next => exact ih next

/-- Hops that have led back to their start go round and round. -/
theorem hop?_of_return {steps : Nat} {path : Path}
    (hReturn : layout.hop? direction filter steps path = some path) (rounds more : Nat) :
    layout.hop? direction filter (steps * rounds + more) path =
      layout.hop? direction filter more path := by
  induction rounds with
  | zero => rw [Nat.mul_zero, Nat.zero_add]
  | succ rounds ih =>
      rw [Nat.mul_succ, Nat.add_right_comm, Nat.add_comm, hop?_add, hReturn]
      exact ih

/-- What hops have led to is where the last of them has landed. -/
theorem landed_of_hop? {steps : Nat} {origin path : Path}
    (h : layout.hop? direction filter (steps + 1) origin = some path) :
    ∃ element, layout.Landed filter origin.parent? path element := by
  induction steps generalizing origin with
  | zero =>
      obtain ⟨next, hNext, hPath⟩ := exists_neighbor?_of_hop? h
      obtain rfl := Option.some.inj hPath
      obtain ⟨-, found, -, hLanded, -⟩ := landed_of_neighbor? hNext
      exact ⟨found, hLanded⟩
  | succ steps ih =>
      obtain ⟨next, hNext, hPath⟩ := exists_neighbor?_of_hop? h
      obtain ⟨-, found, -, hLanded, -⟩ := landed_of_neighbor? hNext
      rw [← hLanded.parent?]
      exact ih hPath

/-- Every hop on the way to where some hops have led has led somewhere. -/
theorem isSome_hop?_of_le {steps i : Nat} {origin path : Path}
    (h : layout.hop? direction filter steps origin = some path) (hLe : i ≤ steps) :
    (layout.hop? direction filter i origin).isSome = true := by
  rw [← Nat.add_sub_cancel' hLe, hop?_add] at h
  obtain ⟨visited, hVisited, -⟩ := Option.bind_eq_some_iff.mp h
  rw [hVisited]
  rfl

/-- Everything hops pass through is placed, their start included. -/
theorem placed_of_hop? {steps i : Nat} {origin last path : Path}
    (h : layout.hop? direction filter (steps + 1) origin = some last)
    (hVisited : layout.hop? direction filter i origin = some path) :
    path ∈ layout.elements.toList.map Element.path := by
  have hPlaced : ∃ element, layout.elementAt? path = some element := by
    cases i with
    | zero =>
        obtain rfl := Option.some.inj hVisited
        obtain ⟨next, hNext, -⟩ := exists_neighbor?_of_hop? h
        obtain ⟨element, -, hElement, -⟩ := landed_of_neighbor? hNext
        exact ⟨element, hElement⟩
    | succ i =>
        obtain ⟨element, hLanded⟩ := landed_of_hop? hVisited
        exact ⟨element, hLanded.elementAt?⟩
  obtain ⟨element, hElement⟩ := hPlaced
  exact List.mem_map.mpr ⟨element, by simpa using mem_of_elementAt? hElement,
    path_of_elementAt? hElement⟩

/-! ## Boxes that clear the slack -/

/-- Every box on which a hop next to a path may land clears the slack. -/
def Clears (layout : Layout) (direction : Direction) (filter : Filter) (origin : Path) : Prop :=
  ∀ element ∈ layout.elements.toList, element.path.parent? = origin.parent? →
    element.popup = false → filter.admits element = true → direction.clears element.box = true

theorem Clears.of_landed {origin path : Path} {element : Element}
    (hClears : layout.Clears direction filter origin)
    (hLanded : layout.Landed filter origin.parent? path element) :
    direction.clears element.box = true := by
  have hPath := path_of_elementAt? hLanded.elementAt?
  refine hClears element ?_ (hPath ▸ hLanded.parent?) hLanded.popup hLanded.admits
  simpa using mem_of_elementAt? hLanded.elementAt?

/-- **Step**: a hop leads beyond where it starts. -/
theorem beyond_of_neighbor? {origin path next : Path} {element : Element}
    (hClears : layout.Clears direction filter origin)
    (hLanded : layout.Landed filter origin.parent? path element)
    (h : layout.neighbor? direction filter path = some next) :
    ∃ found, layout.Landed filter origin.parent? next found ∧
      direction.Beyond element.box found.box := by
  obtain ⟨start, found, hStart, hFound, hAccepts⟩ := landed_of_neighbor? h
  rw [hLanded.elementAt?] at hStart
  cases hStart
  rw [hLanded.parent?] at hFound
  exact ⟨found, hFound, Direction.beyond_of_accepts (hClears.of_landed hLanded)
    (hClears.of_landed hFound) hAccepts⟩

/-- **Run**: any number of hops leads beyond where they start. -/
theorem beyond_of_hop? {origin path last : Path} {element : Element} {steps : Nat}
    (hClears : layout.Clears direction filter origin)
    (hLanded : layout.Landed filter origin.parent? path element)
    (h : layout.hop? direction filter (steps + 1) path = some last) :
    ∃ found, layout.Landed filter origin.parent? last found ∧
      direction.Beyond element.box found.box := by
  induction steps generalizing path element with
  | zero =>
      obtain ⟨next, hNext, hLast⟩ := exists_neighbor?_of_hop? h
      obtain rfl := Option.some.inj hLast
      exact beyond_of_neighbor? hClears hLanded hNext
  | succ steps ih =>
      obtain ⟨next, hNext, hLast⟩ := exists_neighbor?_of_hop? h
      obtain ⟨middle, hMiddle, hBeyond⟩ := beyond_of_neighbor? hClears hLanded hNext
      obtain ⟨found, hFound, hFurther⟩ := ih hMiddle hLast
      exact ⟨found, hFound, hBeyond.trans hFurther⟩

/-- **No return**: hops do not come back to where they have been. -/
theorem hop?_ne_of_lt {origin path : Path} {i j : Nat}
    (hClears : layout.Clears direction filter origin) (hLt : i < j)
    (hVisited : layout.hop? direction filter i origin = some path) :
    layout.hop? direction filter j origin ≠ some path := by
  intro hAgain
  obtain ⟨more, rfl⟩ := Nat.exists_eq_add_of_lt hLt
  obtain ⟨element, hLanded⟩ := landed_of_hop? hAgain
  have hLoop : layout.hop? direction filter (more + 1) path = some path := by
    rwa [Nat.add_assoc, hop?_add, hVisited] at hAgain
  obtain ⟨found, hFound, hBeyond⟩ := beyond_of_hop? hClears hLanded hLoop
  have hSame := hLanded.elementAt?.symm.trans hFound.elementAt?
  cases hSame
  exact direction.beyond_irrefl element.box hBeyond

/-- Where hops have led tells how many there have been. -/
theorem hop?_inj {origin path : Path} {i j : Nat}
    (hClears : layout.Clears direction filter origin)
    (hI : layout.hop? direction filter i origin = some path)
    (hJ : layout.hop? direction filter j origin = some path) : i = j := by
  rcases Nat.lt_trichotomy i j with hLt | hEq | hLt
  · exact absurd hJ (hop?_ne_of_lt hClears hLt hI)
  · exact hEq
  · exact absurd hI (hop?_ne_of_lt hClears hLt hJ)

/-- **Few hops**: as many hops as there are elements lead nowhere. -/
theorem hop?_eq_none_of_size_le {origin : Path} {steps : Nat}
    (hClears : layout.Clears direction filter origin) (hSteps : layout.size ≤ steps + 1) :
    layout.hop? direction filter (steps + 1) origin = none := by
  cases hHop : layout.hop? direction filter (steps + 1) origin with
  | none => rfl
  | some last =>
      -- The start counts too, so that one more place is visited than there are hops.
      let visited := (List.range (steps + 2)).filterMap
        fun i => layout.hop? direction filter i origin
      have hLength : visited.length = steps + 2 := by
        rw [List.filterMap_length_eq_length.mpr, List.length_range]
        intro i hMem
        exact isSome_hop?_of_le hHop (Nat.le_of_lt_succ (List.mem_range.mp hMem))
      have hDistinct : visited.Nodup :=
        List.nodup_range.filterMap fun _ _ _ hI hJ => hop?_inj hClears hI hJ
      have hPlaced : visited ⊆ layout.elements.toList.map Element.path := by
        intro path hMem
        obtain ⟨i, -, hPath⟩ := List.mem_filterMap.mp hMem
        exact placed_of_hop? hHop hPath
      have hFew := hDistinct.length_le_of_subset hPlaced
      rw [hLength, List.length_map, Array.length_toList] at hFew
      exact absurd (hFew.trans hSteps) (Nat.not_succ_le_self _)

end Chains

end Layout

/-! ## Oversized step counts -/

/-- A step count that is too large to write in 32 bits counts as the largest that is not. -/
theorem Literal.steps_of_relative {letter : Char} {digits : List Char} {direction : Direction}
    {steps : Nat}
    (h : relative (String.ofList ('$' :: letter :: digits)) = .ok (direction, steps)) :
    steps = min (Decimal.ofDigits digits) maxSteps := by
  obtain ⟨_, _, hBody, -, -, -, hSteps⟩ := relative_eq_ok_iff.mp h
  rw [body_of_dollar String.toList_ofList] at hBody
  rw [(List.cons.inj hBody).2]
  exact hSteps

namespace Sheet

/-- A relative reference reads zero when its hops do not lead to an element. -/
theorem readReference_of_not_placed {sheet : Sheet} {filter : Filter} {origin : Path}
    {direction : Direction} {steps : Nat}
    (h : (sheet.layout.hop? direction filter steps origin).bind sheet.layout.elementAt? = none)
    (entered : List Uid) :
    (sheet.scope filter origin entered).readReference (.relative direction steps) = .ok 0 := by
  have hTarget : (sheet.scope filter origin entered).relativeTarget direction steps =
      .number 0 := by
    unfold Scope.relativeTarget
    dsimp only
    cases hHop : sheet.layout.hop? direction filter steps origin with
    | none => rfl
    | some path =>
        rw [hHop, Option.bind_some] at h
        dsimp only
        rw [h]
  rw [Scope.readReference_eq, Scope.target, hTarget]
  exact congrArg Except.ok (Scope.read_number _ 0)

/-- A relative reference of at least as many steps as there are elements reads zero, where
hops leave behind what they pass. -/
theorem readReference_of_size_le {sheet : Sheet} {direction : Direction} {filter : Filter}
    {origin : Path} (hClears : sheet.layout.Clears direction filter origin) {steps : Nat}
    (hSteps : sheet.layout.size ≤ steps) (entered : List Uid) :
    (sheet.scope filter origin entered).readReference (.relative direction steps) = .ok 0 := by
  apply readReference_of_not_placed
  cases steps with
  | zero =>
      have hEmpty : sheet.layout.elements = #[] :=
        Array.eq_empty_of_size_eq_zero (Nat.le_zero.mp hSteps)
      show sheet.layout.elementAt? origin = none
      rw [Layout.elementAt?_eq_find?, hEmpty]
      rfl
  | succ steps =>
      rw [Layout.hop?_eq_none_of_size_le hClears hSteps]
      rfl

/-- **Oversized step counts dangle**: where every box on which a hop may land clears the
slack, hops in one direction never come back to where they have been, and a reference of at
least as many steps as there are elements reads zero. So does one whose steps are too many
to be written in 32 bits. -/
theorem readReference_oversized (sheet : Sheet) (direction : Direction) (filter : Filter)
    (origin : Path) (hClears : sheet.layout.Clears direction filter origin) :
    (∀ i j path, i < j → sheet.layout.hop? direction filter i origin = some path →
      sheet.layout.hop? direction filter j origin ≠ some path) ∧
    (∀ steps entered, sheet.layout.size ≤ steps →
      (sheet.scope filter origin entered).readReference (.relative direction steps) = .ok 0) ∧
    (∀ letter digits steps entered, sheet.layout.size < UInt32.size →
      Literal.relative (String.ofList ('$' :: letter :: digits)) = .ok (direction, steps) →
      UInt32.size ≤ Decimal.ofDigits digits →
        steps = Literal.maxSteps ∧
        (sheet.scope filter origin entered).readReference (.relative direction steps) =
          .ok 0) := by
  refine ⟨?_, ?_, ?_⟩
  · intro i j path hLt hVisited
    exact Layout.hop?_ne_of_lt hClears hLt hVisited
  · intro steps entered hSteps
    exact readReference_of_size_le hClears hSteps entered
  · intro letter digits steps entered hSize hLiteral hDigits
    have hMax : steps = Literal.maxSteps := by
      rw [Literal.steps_of_relative hLiteral]
      exact Nat.min_eq_right ((Nat.sub_le _ 1).trans hDigits)
    have hSteps : sheet.layout.size ≤ steps := hMax ▸ Nat.le_sub_one_of_lt hSize
    exact ⟨hMax, readReference_of_size_le hClears hSteps entered⟩

/-- A cell that asks for more steps up than 32 bits hold, below a single note. -/
theorem readReference_oversized_column :
    let sheet := column ["8", "=$U4294967296+1"]
    sheet.layout.Clears .up .anything (columnPath 1) ∧
      sheet.layout.hop? .up .anything 1 (columnPath 1) = some (columnPath 0) ∧
      sheet.layout.hop? .up .anything 2 (columnPath 1) ≠ some (columnPath 0) ∧
      (sheet.scope .anything (columnPath 1)).readReference (.relative .up 2) = .ok 0 ∧
      (sheet.scope .anything (columnPath 1)).readReference (.relative .up Literal.maxSteps) =
        .ok 0 := by
  intro sheet
  have hClears : sheet.layout.Clears .up .anything (columnPath 1) := by
    unfold Layout.Clears
    decide +kernel
  obtain ⟨hOne, hSize⟩ : sheet.layout.hop? .up .anything 1 (columnPath 1) =
      some (columnPath 0) ∧ sheet.layout.size = 2 := by
    decide +kernel
  have hLiteral : Literal.relative (String.ofList ('$' :: 'U' :: "4294967296".toList)) =
      .ok (.up, Literal.maxSteps) := by
    decide +kernel
  obtain ⟨hReturn, hZero, hLarge⟩ :=
    readReference_oversized sheet .up .anything (columnPath 1) hClears
  refine ⟨hClears, hOne, hReturn 1 2 _ (by decide) hOne, hZero 2 [] hSize.le, ?_⟩
  exact (hLarge 'U' _ _ [] (by rw [hSize]; decide) hLiteral (by decide +kernel)).2

/-! ## Narrow boxes -/

/-- A note and a rating of five stars, one pixel wide and in the same place. -/
def narrow : Sheet :=
  let note : Item := { id := Uid.ofNat 2, kind := .note }
  let rating : Item := { id := Uid.ofNat 3, kind := .rating, rating := 5 }
  let place (layout : Layout) (item : Item) : Layout :=
    let element : Element :=
      { path := (Path.root (Uid.ofNat 1)).child item.id, item := item.id, kind := item.kind
        box := ⟨0, 0, 1, 10⟩ }
    (layout.insert element).toOption.getD layout
  ⟨ItemStore.ofList [note, rating], [note, rating].foldl place .empty⟩

/-- Where the note of `narrow` is placed. -/
def narrowNote : Path := (Path.root (Uid.ofNat 1)).child (Uid.ofNat 2)

theorem narrow_return : narrow.layout.hop? .right .anything 2 narrowNote = some narrowNote := by
  decide +kernel

/-- **Round and round**: the two boxes of `narrow` lie to the right of each other. Two hops
to the right lead back to the start, and a reference from there reads five stars however
many steps it takes, if only their number is odd. -/
theorem readReference_of_narrow :
    narrow.layout.hop? .right .anything 0 narrowNote =
        narrow.layout.hop? .right .anything 2 narrowNote ∧
      narrow.layout.size = 2 ∧
      (narrow.scope .anything narrowNote).readReference (.relative .right 3) = .ok 5 ∧
      (narrow.scope .anything narrowNote).readReference (.relative .right Literal.maxSteps) =
        .ok 5 ∧
      (5 : Float) ≠ 0 := by
  have hOne : (narrow.scope .anything narrowNote).relativeTarget .right 1 = .number 5 := by
    decide +kernel
  have hOdd (rounds : Nat) : (narrow.scope .anything narrowNote).readReference
      (.relative .right (2 * rounds + 1)) = .ok 5 := by
    have hTarget : (narrow.scope .anything narrowNote).relativeTarget .right (2 * rounds + 1) =
        (narrow.scope .anything narrowNote).relativeTarget .right 1 := by
      unfold Scope.relativeTarget
      dsimp only
      rw [Layout.hop?_of_return narrow_return]
    rw [Scope.readReference_eq, Scope.target, hTarget, hOne]
    exact congrArg Except.ok (Scope.read_number _ 5)
  have hMax : Literal.maxSteps = 2 * 2147483647 + 1 := by decide
  refine ⟨narrow_return.symm, by decide +kernel, hOdd 1, ?_, by decide⟩
  rw [hMax]
  exact hOdd 2147483647

end Sheet

end NoteSheet
