import Mathlib.Data.List.Nodup
import NoteSheet.Proofs.Circles

/-!
# How deep evaluation nests

The value of a formula says nothing of the way to it. What the evaluation enters on the way is
said here by relations that follow it (`Expr.Asks`, `Scope.Enters`): it reads references from left
to right, no others (`Expr.evaluate_congr_of_asks`), and enters each formula note that it lands on
and does not evaluate already.

The evaluation is also run, with a limit on how many formulas are evaluated inside each other,
and with a record of the scopes that it opens. The limit is what the run recurses on, and a run
that meets it gives up: its definition does not rely on the guard against circles to end. With
room to spare, the run has the value of the formula for its result, and its record holds what the
evaluation enters, all of it and nothing else (`Sheet.evaluateTextWithin_records`).

The guard makes what is entered a set of chains (`Chain`): no note is entered twice, and only
stored formula notes are. A chain that enters a further note leaves fewer to enter, so a limit of
as many formulas as there are to enter is never met (`Sheet.readWithin_yields`), and a higher
limit changes nothing (`Sheet.readWithin_eq`).

Main statements: `Sheet.evaluateTextWithin_records` and `Sheet.evaluateTextWithin_nests`.
-/

namespace NoteSheet

/-! ## What an evaluation enters -/

/-- The evaluation of an expression reads a reference. Operands are evaluated from left to right,
and what stands behind a failure is not read. -/
inductive Expr.Asks (absolute : Uid → Except ReferenceError Float)
    (relative : Direction → Nat → Float) : Expr → Reference → Prop
  | absolute (id : Uid) : Asks absolute relative (.absolute id) (.absolute id)
  | relative (direction : Direction) (steps : Nat) :
      Asks absolute relative (.relative direction steps) (.relative direction steps)
  | group {inner : Expr} {ref : Reference} (asks : Asks absolute relative inner ref) :
      Asks absolute relative (.group inner) ref
  | negate {operand : Expr} {ref : Reference} (asks : Asks absolute relative operand ref) :
      Asks absolute relative (.negate operand) ref
  | left {operator : Operator} {left right : Expr} {ref : Reference}
      (asks : Asks absolute relative left ref) :
      Asks absolute relative (.binary operator left right) ref
  | right {operator : Operator} {left right : Expr} {ref : Reference} {x : Float}
      (value : left.evaluate absolute relative = .ok x) (asks : Asks absolute relative right ref) :
      Asks absolute relative (.binary operator left right) ref

/-- **Nothing else is read**: the value stays the same where every reference that is read does. -/
theorem Expr.evaluate_congr_of_asks {absolute absolute' : Uid → Except ReferenceError Float}
    {relative relative' : Direction → Nat → Float} {expr : Expr}
    (h : ∀ ref, expr.Asks absolute relative ref →
      ref.read absolute' relative' = ref.read absolute relative) :
    expr.evaluate absolute' relative' = expr.evaluate absolute relative := by
  induction expr with
  | number value => rfl
  | absolute id => exact h _ (.absolute id)
  | relative direction steps => exact h _ (.relative direction steps)
  | group inner ih => exact ih fun ref hAsks => h ref (.group hAsks)
  | negate operand ih =>
      have hOperand := ih fun ref hAsks => h ref (.negate hAsks)
      rw [evaluate_negate_eq_bind, evaluate_negate_eq_bind, hOperand]
  | binary operator left right ihLeft ihRight =>
      have hLeft := ihLeft fun ref hAsks => h ref (.left hAsks)
      rw [evaluate, evaluate, hLeft]
      cases hValue : left.evaluate absolute relative with
      | error fault => rfl
      | ok x => rw [ihRight fun ref hAsks => h ref (.right hValue hAsks)]

namespace Scope

/-- The evaluation of a formula reads what one of its references lands on. -/
def ReadsTarget (scope : Scope) (text : String) (target : Target scope.sheet.items) : Prop :=
  ∃ expr ref, Expr.parse text = .ok expr ∧
    expr.Asks scope.readAbsolute scope.readRelative ref ∧ scope.target ref = .ok target

/-- The evaluation of a formula enters a scope: the one of a formula note that it reads and that
is not being evaluated, or one that the formula of such a note enters in its turn. -/
inductive Enters : Scope → String → Scope → Prop
  | note {scope : Scope} {text : String} {note : FormulaNote scope.sheet.items} {path : Path}
      (reads : scope.ReadsTarget text (.formula note path)) (new : note.id ∉ scope.entered) :
      Enters scope text (scope.enter note.id path)
  | inside {scope inner : Scope} {text : String} {note : FormulaNote scope.sheet.items}
      {path : Path} (reads : scope.ReadsTarget text (.formula note path))
      (new : note.id ∉ scope.entered)
      (enters : Enters (scope.enter note.id path) note.text inner) : Enters scope text inner

/-- To read a cell opens a scope: the one of a formula note that is not being evaluated, or one
that its formula enters. -/
def Opens (scope : Scope) : Target scope.sheet.items → Scope → Prop
  | .number _, _ => False
  | .formula note path, inner =>
      note.id ∉ scope.entered ∧
        (inner = scope.enter note.id path ∨ (scope.enter note.id path).Enters note.text inner)

/-- A formula enters what is opened by the cells that it reads. -/
theorem enters_iff {scope inner : Scope} {text : String} :
    scope.Enters text inner ↔
      ∃ target, scope.ReadsTarget text target ∧ scope.Opens target inner := by
  constructor
  · intro h
    cases h with
    | note reads new => exact ⟨_, reads, new, .inl rfl⟩
    | inside reads new enters => exact ⟨_, reads, new, .inr enters⟩
  · rintro ⟨target, hReads, hOpens⟩
    match target, hReads, hOpens with
    | .formula note path, hReads, ⟨hNew, .inl hInner⟩ => exact hInner ▸ .note hReads hNew
    | .formula note path, hReads, ⟨hNew, .inr hEnters⟩ => exact .inside hReads hNew hEnters

end Scope

/-! ## Runs that keep a record -/

/-- A run that may give up, and records the scopes that it opens, the latest first. -/
abbrev Recorded := StateT (List Scope) Option

/-- The run ends with a result, and what it opens are the scopes with a property. -/
def Yields {α : Type} (P : Scope → Prop) (run : Recorded α) (result : α) : Prop :=
  ∃ opened, (∀ inner, inner ∈ opened ↔ P inner) ∧
    ∀ before, run.run before = some (result, opened ++ before)

namespace Yields

variable {α β ε : Type} {P Q : Scope → Prop}

theorem congr {run : Recorded α} {result : α} (h : Yields P run result)
    (hSame : ∀ inner, P inner ↔ Q inner) : Yields Q run result := by
  obtain ⟨opened, hOpened, hRun⟩ := h
  exact ⟨opened, fun inner => (hOpened inner).trans (hSame inner), hRun⟩

theorem pure (result : α) : Yields (fun _ => False) (Pure.pure result) result :=
  ⟨[], by simp, fun _ => rfl⟩

/-- Opening a scope. -/
theorem record (scope : Scope) : Yields (· = scope) (modify (scope :: ·)) () :=
  ⟨[scope], by simp, fun _ => rfl⟩

theorem bind {first : Recorded α} {next : α → Recorded β} {x : α} {y : β}
    (hFirst : Yields P first x) (hNext : Yields Q (next x) y) :
    Yields (fun inner => P inner ∨ Q inner) (first >>= next) y := by
  obtain ⟨opened, hOpened, hRun⟩ := hFirst
  obtain ⟨opened', hOpened', hRun'⟩ := hNext
  refine ⟨opened' ++ opened, fun inner => ?_, fun before => ?_⟩
  · rw [List.mem_append, hOpened, hOpened', or_comm]
  · rw [StateT.run_bind, hRun, Option.bind_eq_bind, Option.bind_some, hRun', List.append_assoc]

/-- What follows without opening a scope. -/
theorem andThen {first : Recorded α} {x : α} (hFirst : Yields P first x) (f : α → β) :
    Yields P (first >>= fun a => Pure.pure (f a)) (f x) :=
  (hFirst.bind (.pure (f x))).congr fun _ => or_iff_left not_false

theorem lift {run : Recorded α} {result : α} (h : Yields P run result) :
    Yields P (ExceptT.lift run : ExceptT ε Recorded α).run (.ok result) := by
  obtain ⟨opened, hOpened, hRun⟩ := h
  refine ⟨opened, hOpened, fun before => ?_⟩
  rw [ExceptT.run_lift, StateT.run_map, hRun]
  rfl

/-- A run that may fail goes on where it has not failed. -/
theorem bindExcept {first : ExceptT ε Recorded α} {next : α → ExceptT ε Recorded β}
    {x : Except ε α} {y : α → Except ε β} (hFirst : Yields P first.run x)
    (hNext : ∀ a, Yields Q (next a).run (y a)) :
    Yields (fun inner => P inner ∨ (∃ a, x = .ok a) ∧ Q inner) (first >>= next).run (x >>= y) := by
  rw [ExceptT.run_bind]
  apply hFirst.bind
  cases x with
  | error fault => exact (Yields.pure _).congr fun inner => by simp
  | ok a => exact (hNext a).congr fun inner => by simp

theorem mapExcept {first : ExceptT ε Recorded α} {x : Except ε α} (hFirst : Yields P first.run x)
    (f : α → β) :
    Yields P (first >>= fun a => Pure.pure (f a)).run (x >>= fun a => .ok (f a)) := by
  have hPure (a : α) : Yields (fun _ => False) (Pure.pure (f a) : ExceptT ε Recorded β).run
      (.ok (f a)) := .pure _
  exact (hFirst.bindExcept hPure).congr fun _ => or_iff_left fun h => h.2

end Yields

/-! ## Evaluation with a record -/

/-- Runs an expression, given how references are read. Operands are run from left to right, and
the first that fails ends the run. -/
def Expr.run (read : Reference → ExceptT ReferenceError Recorded Float) :
    Expr → ExceptT ReferenceError Recorded Float
  | .number value => pure value
  | .absolute id => read (.absolute id)
  | .relative direction steps => read (.relative direction steps)
  | .group inner => inner.run read
  | .negate operand => do
      let x ← operand.run read
      return -x
  | .binary operator left right => do
      let x ← left.run read
      let y ← right.run read
      return operator.apply x y

namespace Scope

/-- Runs a formula, given how what its references land on is read. -/
def runText (scope : Scope) (read : Target scope.sheet.items → Recorded Float) (text : String) :
    Recorded (Except FormulaError Float) :=
  match Expr.parse text with
  | .error fault => pure (.error (.parse fault))
  | .ok expr => do
      let value ← ExceptT.run <| expr.run fun ref =>
        match scope.target ref with
        | .error fault => throw fault
        | .ok target => read target
      return value.mapError .reference

/-- Reads a cell with at most `limit` formulas evaluated inside each other. Each that is
evaluated is recorded, and the run gives up on one more than the limit. -/
def readWithin : (limit : Nat) → (scope : Scope) → Target scope.sheet.items → Recorded Float
  | _, _, .number value => pure value
  | 0, scope, .formula note _ =>
      if note.id ∈ scope.entered then pure Number.nan else failure
  | limit + 1, scope, .formula note path =>
      if note.id ∈ scope.entered then pure Number.nan
      else do
        let inner := scope.enter note.id path
        modify (inner :: ·)
        let result ← inner.runText (readWithin limit inner) note.text
        return Number.ofResult result

/-- Evaluates a formula with at most `limit` others evaluated inside each other. -/
def evaluateTextWithin (limit : Nat) (scope : Scope) (text : String) :
    Recorded (Except FormulaError Float) :=
  scope.runText (scope.readWithin limit) text

end Scope

/-- A run of an expression gives its value when every reference is read as the value has it,
and opens what is opened for the references that are read. -/
theorem Expr.run_yields {P : Reference → Scope → Prop}
    {read : Reference → ExceptT ReferenceError Recorded Float}
    {absolute : Uid → Except ReferenceError Float} {relative : Direction → Nat → Float}
    (hRead : ∀ ref, Yields (P ref) (read ref).run (ref.read absolute relative)) (expr : Expr) :
    Yields (fun inner => ∃ ref, expr.Asks absolute relative ref ∧ P ref inner)
      (expr.run read).run (expr.evaluate absolute relative) := by
  induction expr with
  | number value =>
      refine (Yields.pure _).congr fun inner => ⟨nofun, ?_⟩
      rintro ⟨ref, hAsks, -⟩
      cases hAsks
  | absolute id =>
      refine (hRead (.absolute id)).congr fun inner => ⟨fun h => ⟨_, .absolute id, h⟩, ?_⟩
      rintro ⟨ref, hAsks, hOpens⟩
      cases hAsks
      exact hOpens
  | relative direction steps =>
      refine (hRead (.relative direction steps)).congr fun inner =>
        ⟨fun h => ⟨_, .relative direction steps, h⟩, ?_⟩
      rintro ⟨ref, hAsks, hOpens⟩
      cases hAsks
      exact hOpens
  | group inner ih =>
      refine ih.congr fun inner => exists_congr fun ref => and_congr_left fun _ => ?_
      exact ⟨.group, fun | .group hAsks => hAsks⟩
  | negate operand ih =>
      rw [evaluate_negate_eq_bind]
      refine (ih.mapExcept _).congr fun inner => exists_congr fun ref => and_congr_left fun _ => ?_
      exact ⟨.negate, fun | .negate hAsks => hAsks⟩
  | binary operator left right ihLeft ihRight =>
      refine (ihLeft.bindExcept fun x => ihRight.mapExcept (operator.apply x)).congr fun inner => ?_
      constructor
      · rintro (⟨ref, hAsks, hOpens⟩ | ⟨⟨x, hValue⟩, ref, hAsks, hOpens⟩)
        · exact ⟨ref, .left hAsks, hOpens⟩
        · exact ⟨ref, .right hValue hAsks, hOpens⟩
      · rintro ⟨ref, hAsks, hOpens⟩
        cases hAsks with
        | left asks => exact .inl ⟨ref, asks, hOpens⟩
        | right value asks => exact .inr ⟨⟨_, value⟩, ref, asks, hOpens⟩

/-- A run of a formula gives its result when every cell is read as its value, and opens what is
opened for the cells that are read. -/
theorem Scope.runText_yields (scope : Scope) {P : Target scope.sheet.items → Scope → Prop}
    {read : Target scope.sheet.items → Recorded Float}
    (hRead : ∀ target, Yields (P target) (read target) (scope.read target)) (text : String) :
    Yields (fun inner => ∃ target, scope.ReadsTarget text target ∧ P target inner)
      (scope.runText read text) (scope.evaluateText text) := by
  unfold runText
  cases hParse : Expr.parse text with
  | error fault =>
      rw [evaluateText_of_parse_error hParse]
      refine (Yields.pure _).congr fun inner => ⟨nofun, ?_⟩
      rintro ⟨target, ⟨expr, ref, hExpr, -⟩, -⟩
      rw [hParse] at hExpr
      cases hExpr
  | ok expr =>
      rw [evaluateText_of_parse hParse]
      have hReference (ref : Reference) :
          Yields (fun inner => ∃ target, scope.target ref = .ok target ∧ P target inner)
            (match scope.target ref with
              | .error fault => throw fault
              | .ok target => ExceptT.lift (read target) :
                ExceptT ReferenceError Recorded Float).run
            (scope.readReference ref) := by
        rw [readReference_eq]
        cases scope.target ref with
        | error fault => exact (Yields.pure _).congr fun inner => by simp
        | ok target => exact (hRead target).lift.congr fun inner => by simp
      refine ((Expr.run_yields hReference expr).andThen _).congr fun inner => ?_
      constructor
      · rintro ⟨ref, hAsks, target, hTarget, hOpens⟩
        exact ⟨target, ⟨expr, ref, hParse, hAsks, hTarget⟩, hOpens⟩
      · rintro ⟨target, ⟨_, ref, hExpr, hAsks, hTarget⟩, hOpens⟩
        obtain rfl := Except.ok.inj (hParse.symm.trans hExpr)
        exact ⟨ref, hAsks, target, hTarget, hOpens⟩

/-! ## Chains -/

/-- The notes entered one inside the other: stored formula notes, none of them twice. -/
structure Sheet.Chain (sheet : Sheet) (entered : List Uid) : Prop where
  nodup : entered.Nodup
  stored : ∀ id ∈ entered, ∃ note : FormulaNote sheet.items, note.id = id

namespace Sheet.Chain

variable {sheet : Sheet} {entered : List Uid}

theorem nil (sheet : Sheet) : sheet.Chain [] := ⟨.nil, by simp⟩

theorem cons (h : sheet.Chain entered) {note : FormulaNote sheet.items}
    (hNew : note.id ∉ entered) : sheet.Chain (note.id :: entered) where
  nodup := List.nodup_cons.mpr ⟨hNew, h.nodup⟩
  stored id hMem := by
    rcases List.mem_cons.mp hMem with rfl | hMem
    · exact ⟨note, rfl⟩
    · exact h.stored id hMem

/-- A chain is no longer than there are formula notes. -/
theorem length_le (h : sheet.Chain entered) :
    entered.length ≤ sheet.items.formulaIds.length := by
  apply List.Nodup.length_le_of_subset h.nodup
  intro id hMem
  obtain ⟨note, rfl⟩ := h.stored id hMem
  exact note.mem_formulaIds

end Sheet.Chain

/-! ## Limits -/

namespace Scope

variable {scope : Scope} {limit : Nat}

theorem readWithin_number (value : Float) :
    scope.readWithin limit (.number value) = pure value := by
  cases limit <;> rfl

theorem readWithin_of_mem {note : FormulaNote scope.sheet.items} (h : note.id ∈ scope.entered)
    (path : Path) : scope.readWithin limit (.formula note path) = pure Number.nan := by
  cases limit <;> exact if_pos h

/-- Where the limit leaves room for every note that is not entered, it leaves room to enter one
of them and every other after it. -/
theorem exists_limit_of_not_mem (hLimit : scope.unentered ≤ limit)
    {note : FormulaNote scope.sheet.items} (hNew : note.id ∉ scope.entered) (path : Path) :
    ∃ less, limit = less + 1 ∧ (scope.enter note.id path).unentered ≤ less := by
  have hLess := scope.unentered_enter_lt note path hNew
  exact ⟨limit - 1, by omega, by omega⟩

end Scope

namespace Sheet

variable {sheet : Sheet} {filter : Filter}

theorem readWithin_note_of_not_mem (origin : Path) {entered : List Uid}
    {note : FormulaNote sheet.items} (hNew : note.id ∉ entered) (path : Path) (limit : Nat) :
    (sheet.scope filter origin entered).readWithin (limit + 1) (.formula note path) = do
      modify (sheet.scope filter path (note.id :: entered) :: ·)
      let result ←
        (sheet.scope filter path (note.id :: entered)).evaluateTextWithin limit note.text
      return Number.ofResult result :=
  if_neg hNew

/-- **A limit with room to spare changes nothing**: neither the value nor the record. -/
theorem readWithin_eq (origin : Path) (entered : List Uid) {limit limit' : Nat}
    (hLimit : (sheet.scope filter origin entered).unentered ≤ limit)
    (hLimit' : (sheet.scope filter origin entered).unentered ≤ limit')
    (target : Target sheet.items) :
    (sheet.scope filter origin entered).readWithin limit target =
      (sheet.scope filter origin entered).readWithin limit' target := by
  induction entered using sheet.entered_induction generalizing origin limit limit' target with
  | step entered ih =>
      cases target with
      | number value => rw [Scope.readWithin_number, Scope.readWithin_number]
      | formula note path =>
          by_cases hEntered : note.id ∈ entered
          · rw [Scope.readWithin_of_mem hEntered, Scope.readWithin_of_mem hEntered]
          · obtain ⟨less, rfl, hLess⟩ := Scope.exists_limit_of_not_mem hLimit hEntered path
            obtain ⟨less', rfl, hLess'⟩ := Scope.exists_limit_of_not_mem hLimit' hEntered path
            have hRead := funext (ih note hEntered path hLess hLess')
            rw [readWithin_note_of_not_mem origin hEntered,
              readWithin_note_of_not_mem origin hEntered]
            unfold Scope.evaluateTextWithin
            rw [hRead]

/-- **Nesting is bounded**: a limit that leaves room for every note that is not entered lets a
cell be read, and what is opened on the way is what the cell opens. -/
theorem readWithin_yields (origin : Path) (entered : List Uid) {limit : Nat}
    (hLimit : (sheet.scope filter origin entered).unentered ≤ limit)
    (target : Target sheet.items) :
    Yields ((sheet.scope filter origin entered).Opens target)
      ((sheet.scope filter origin entered).readWithin limit target)
      ((sheet.scope filter origin entered).read target) := by
  induction entered using sheet.entered_induction generalizing origin limit target with
  | step entered ih =>
      cases target with
      | number value =>
          rw [Scope.readWithin_number, Scope.read_number]
          exact .pure value
      | formula note path =>
          by_cases hEntered : note.id ∈ entered
          · rw [Scope.readWithin_of_mem hEntered, read_note_of_mem origin hEntered]
            exact (Yields.pure _).congr fun inner => ⟨nofun, fun h => h.1 hEntered⟩
          · obtain ⟨less, rfl, hLess⟩ := Scope.exists_limit_of_not_mem hLimit hEntered path
            rw [readWithin_note_of_not_mem origin hEntered, read_note_of_not_mem origin hEntered]
            have hText := Scope.runText_yields (sheet.scope filter path (note.id :: entered))
              (ih note hEntered path hLess) note.text
            refine ((Yields.record _).bind (hText.andThen Number.ofResult)).congr fun inner => ?_
            rw [← Scope.enters_iff]
            exact (and_iff_right hEntered).symm

/-- What is entered carries chains. -/
theorem chain_of_enters {scope inner : Scope} {text : String} (h : scope.Enters text inner)
    (hChain : scope.sheet.Chain scope.entered) :
    inner.sheet = scope.sheet ∧ scope.sheet.Chain inner.entered := by
  induction h with
  | note reads new => exact ⟨rfl, hChain.cons new⟩
  | inside reads new enters ih => exact ih (hChain.cons new)

/-- **The record is complete**: a run with room for every stored formula note ends with the
value of the formula, and records the scopes that its evaluation enters, all of them and no
others. -/
theorem evaluateTextWithin_records (sheet : Sheet) (filter : Filter) (origin : Path)
    (text : String) :
    ∃ opened : List Scope,
      (∀ limit, sheet.items.formulaIds.length ≤ limit →
        ((sheet.scope filter origin).evaluateTextWithin limit text).run [] =
          some ((sheet.scope filter origin).evaluateText text, opened)) ∧
      ∀ inner, inner ∈ opened ↔ (sheet.scope filter origin).Enters text inner := by
  let scope := sheet.scope filter origin
  have hAll : scope.unentered = sheet.items.formulaIds.length := by
    simp [scope, Scope.unentered]
  obtain ⟨opened, hOpened, hRun⟩ :=
    scope.runText_yields (readWithin_yields origin [] (Nat.le_refl scope.unentered)) text
  refine ⟨opened, fun limit hLimit => ?_, fun inner => (hOpened inner).trans Scope.enters_iff.symm⟩
  have hEnough : scope.unentered ≤ limit := hAll ▸ hLimit
  have hRead : scope.readWithin limit = scope.readWithin scope.unentered :=
    funext (readWithin_eq origin [] hEnough (Nat.le_refl _))
  show (scope.runText (scope.readWithin limit) text).run [] = _
  rw [hRead, hRun, List.append_nil]

/-- **Chains are bounded**: a formula is evaluated to its end by a run that evaluates at most as
many formulas inside each other as there are formula notes, and every scope that is opened on the
way carries a chain. -/
theorem evaluateTextWithin_nests (sheet : Sheet) (filter : Filter) (origin : Path)
    (text : String) :
    ∃ opened : List Scope,
      (∀ limit, sheet.items.formulaIds.length ≤ limit →
        ((sheet.scope filter origin).evaluateTextWithin limit text).run [] =
          some ((sheet.scope filter origin).evaluateText text, opened)) ∧
      ∀ inner ∈ opened, inner.sheet = sheet ∧ sheet.Chain inner.entered ∧
        inner.entered.length ≤ sheet.items.formulaIds.length := by
  obtain ⟨opened, hRun, hOpened⟩ := evaluateTextWithin_records sheet filter origin text
  refine ⟨opened, hRun, fun inner hMem => ?_⟩
  obtain ⟨hSheet, hChain⟩ := chain_of_enters ((hOpened inner).mp hMem) (.nil sheet)
  exact ⟨hSheet, hChain, hChain.length_le⟩

/-- Of two notes that name each other, the second is evaluated inside the first, and there meets
the first again. -/
theorem evaluateTextWithin_nests_circle :
    let first := "$00000000000000000000000000000001"
    let second := "$00000000000000000000000000000002"
    let sheet := column ["=" ++ second, "=" ++ first]
    let scope := sheet.scope .anything (columnPath 0)
    ∃ opened : List Scope,
      (∀ limit, 2 ≤ limit →
        (scope.evaluateTextWithin limit first).run [] = some (.ok Number.nan, opened)) ∧
      opened.map Scope.entered = [[Uid.ofNat 2, Uid.ofNat 1], [Uid.ofNat 1]] ∧
      ∀ inner ∈ opened, sheet.Chain inner.entered := by
  intro first second sheet scope
  obtain ⟨opened, hRun, hChains⟩ :=
    evaluateTextWithin_nests sheet .anything (columnPath 0) first
  have hCount : sheet.items.formulaIds.length = 2 := by decide +kernel
  have hEnds : ((scope.evaluateTextWithin 2 first).run []).map
      (fun ended => (ended.1, ended.2.map Scope.entered)) =
        some (.ok Number.nan, [[Uid.ofNat 2, Uid.ofNat 1], [Uid.ofNat 1]]) := by
    decide +kernel
  rw [hRun 2 (Nat.le_of_eq hCount)] at hEnds
  obtain ⟨hValue, hEntered⟩ := Prod.mk.inj (Option.some.inj hEnds)
  refine ⟨opened, fun limit hLimit => ?_, hEntered, fun inner hMem => (hChains inner hMem).2.1⟩
  rw [hRun limit (hCount ▸ hLimit)]
  exact congrArg (fun value => some (value, opened)) hValue

end Sheet

end NoteSheet
