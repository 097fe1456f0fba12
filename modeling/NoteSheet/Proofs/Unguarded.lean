import NoteSheet.Proofs.Cells

/-!
# Evaluation without a guard

An evaluation remembers which formula notes it is inside of and reads them as not a
number. Here is what formulas are worth when nothing is remembered: a reference that
lands on a formula note takes the value of its formula at the landing element. As this
need not end, it is given by its finite runs, the derivation trees of the rules. A run
is data, so that one can ask of it whether some chain of references enters the same note
twice (`TextRun.EntersOnce`).

Main statement: `evaluateText_sound`. A number that the guarded evaluation comes to has
a run, and every run whose chains repeat no note has the result of the guarded evaluation.
-/

namespace NoteSheet.Unguarded

/-! ## Runs -/

mutual

/-- The runs of a formula text at a path, by the result. -/
inductive TextRun (sheet : Sheet) (filter : Filter) :
    Path → String → Except FormulaError Float → Type where
  | refused {origin : Path} {text : String} {fault : ParseError}
      (parsed : Expr.parse text = .error fault) :
      TextRun sheet filter origin text (.error (.parse fault))
  | evaluated {origin : Path} {text : String} {expr : Expr} {result : Except ReferenceError Float}
      (parsed : Expr.parse text = .ok expr) (run : ExprRun sheet filter origin expr result) :
      TextRun sheet filter origin text (result.mapError .reference)

/-- The runs of an expression at a path. The operands of an operation run from left to
right, and the first that fails ends the run. -/
inductive ExprRun (sheet : Sheet) (filter : Filter) :
    Path → Expr → Except ReferenceError Float → Type where
  | number {origin : Path} (value : Float) : ExprRun sheet filter origin (.number value) (.ok value)
  | dangling {origin : Path} {id : Uid} {fault : ReferenceError}
      (lands : (sheet.scope filter origin).target (.absolute id) = .error fault) :
      ExprRun sheet filter origin (.absolute id) (.error fault)
  | absolute {origin : Path} {id : Uid} {target : Target sheet.items} {value : Float}
      (lands : (sheet.scope filter origin).target (.absolute id) = .ok target)
      (run : TargetRun sheet filter target value) :
      ExprRun sheet filter origin (.absolute id) (.ok value)
  | relative {origin : Path} {direction : Direction} {steps : Nat} {target : Target sheet.items}
      {value : Float}
      (lands : (sheet.scope filter origin).target (.relative direction steps) = .ok target)
      (run : TargetRun sheet filter target value) :
      ExprRun sheet filter origin (.relative direction steps) (.ok value)
  | group {origin : Path} {inner : Expr} {result : Except ReferenceError Float}
      (run : ExprRun sheet filter origin inner result) :
      ExprRun sheet filter origin (.group inner) result
  | negate {origin : Path} {operand : Expr} {result : Except ReferenceError Float}
      (run : ExprRun sheet filter origin operand result) :
      ExprRun sheet filter origin (.negate operand) (result.map fun x => -x)
  | binary {origin : Path} {operator : Operator} {left right : Expr} {x y : Float}
      (leftRun : ExprRun sheet filter origin left (.ok x))
      (rightRun : ExprRun sheet filter origin right (.ok y)) :
      ExprRun sheet filter origin (.binary operator left right) (.ok (operator.apply x y))
  | leftFails {origin : Path} {operator : Operator} {left right : Expr} {fault : ReferenceError}
      (leftRun : ExprRun sheet filter origin left (.error fault)) :
      ExprRun sheet filter origin (.binary operator left right) (.error fault)
  | rightFails {origin : Path} {operator : Operator} {left right : Expr} {x : Float}
      {fault : ReferenceError} (leftRun : ExprRun sheet filter origin left (.ok x))
      (rightRun : ExprRun sheet filter origin right (.error fault)) :
      ExprRun sheet filter origin (.binary operator left right) (.error fault)

/-- The runs of what a reference lands on. A formula note runs at the element where it is
met; when its formula is refused or fails, it is worth what is not a number. -/
inductive TargetRun (sheet : Sheet) (filter : Filter) : Target sheet.items → Float → Type where
  | number (value : Float) : TargetRun sheet filter (.number value) value
  | formula {note : FormulaNote sheet.items} {path : Path} {result : Except FormulaError Float}
      (run : TextRun sheet filter path note.text result) :
      TargetRun sheet filter (.formula note path) (Number.ofResult result)

end

variable {sheet : Sheet} {filter : Filter}

mutual

/-- No chain of references enters a note twice, or one of the notes that were entered
before. -/
def TextRun.EntersOnce {origin : Path} {text : String} {result : Except FormulaError Float}
    (run : TextRun sheet filter origin text result) (entered : List Uid) : Prop :=
  match run with
  | .refused _ => True
  | .evaluated _ run => run.EntersOnce entered

@[inherit_doc TextRun.EntersOnce]
def ExprRun.EntersOnce {origin : Path} {expr : Expr} {result : Except ReferenceError Float}
    (run : ExprRun sheet filter origin expr result) (entered : List Uid) : Prop :=
  match run with
  | .number _ => True
  | .dangling _ => True
  | .absolute _ run => run.EntersOnce entered
  | .relative _ run => run.EntersOnce entered
  | .group run => run.EntersOnce entered
  | .negate run => run.EntersOnce entered
  | .binary leftRun rightRun => leftRun.EntersOnce entered ∧ rightRun.EntersOnce entered
  | .leftFails leftRun => leftRun.EntersOnce entered
  | .rightFails leftRun rightRun => leftRun.EntersOnce entered ∧ rightRun.EntersOnce entered

@[inherit_doc TextRun.EntersOnce]
def TargetRun.EntersOnce {target : Target sheet.items} {value : Float}
    (run : TargetRun sheet filter target value) (entered : List Uid) : Prop :=
  match run with
  | .number _ => True
  | @TargetRun.formula _ _ note _ _ run => note.id ∉ entered ∧ run.EntersOnce (note.id :: entered)

end

/-! ## Runs agree -/

mutual

/-- **Determinism**: all runs of a text at a path have the same result. -/
theorem TextRun.result_unique {origin : Path} {text : String}
    {result result' : Except FormulaError Float} (run : TextRun sheet filter origin text result)
    (run' : TextRun sheet filter origin text result') : result = result' := by
  match run, run' with
  | .refused parsed, .refused parsed' =>
      rw [parsed] at parsed'
      cases parsed'
      rfl
  | .refused parsed, .evaluated parsed' _ =>
      rw [parsed] at parsed'
      cases parsed'
  | .evaluated parsed _, .refused parsed' =>
      rw [parsed] at parsed'
      cases parsed'
  | .evaluated parsed run, .evaluated parsed' run' =>
      rw [parsed] at parsed'
      cases parsed'
      rw [run.result_unique run']

/-- All runs of an expression at a path have the same result. -/
theorem ExprRun.result_unique {origin : Path} {expr : Expr}
    {result result' : Except ReferenceError Float} (run : ExprRun sheet filter origin expr result)
    (run' : ExprRun sheet filter origin expr result') : result = result' := by
  match run, run' with
  | .number _, .number _ => rfl
  | .dangling lands, .dangling lands' =>
      rw [lands] at lands'
      cases lands'
      rfl
  | .dangling lands, .absolute lands' _ =>
      rw [lands] at lands'
      cases lands'
  | .absolute lands _, .dangling lands' =>
      rw [lands] at lands'
      cases lands'
  | .absolute lands run, .absolute lands' run' =>
      rw [lands] at lands'
      cases lands'
      rw [run.value_unique run']
  | .relative lands run, .relative lands' run' =>
      rw [lands] at lands'
      cases lands'
      rw [run.value_unique run']
  | .group run, .group run' => exact run.result_unique run'
  | .negate run, .negate run' => rw [run.result_unique run']
  | .binary leftRun rightRun, .binary leftRun' rightRun' =>
      cases leftRun.result_unique leftRun'
      cases rightRun.result_unique rightRun'
      rfl
  | .binary leftRun _, .leftFails leftRun' => cases leftRun.result_unique leftRun'
  | .binary _ rightRun, .rightFails _ rightRun' => cases rightRun.result_unique rightRun'
  | .leftFails leftRun, .binary leftRun' _ => cases leftRun.result_unique leftRun'
  | .leftFails leftRun, .leftFails leftRun' => exact leftRun.result_unique leftRun'
  | .leftFails leftRun, .rightFails leftRun' _ => cases leftRun.result_unique leftRun'
  | .rightFails _ rightRun, .binary _ rightRun' => cases rightRun.result_unique rightRun'
  | .rightFails leftRun _, .leftFails leftRun' => cases leftRun.result_unique leftRun'
  | .rightFails _ rightRun, .rightFails _ rightRun' => exact rightRun.result_unique rightRun'

/-- All runs of what a reference lands on have the same value. -/
theorem TargetRun.value_unique {target : Target sheet.items} {value value' : Float}
    (run : TargetRun sheet filter target value) (run' : TargetRun sheet filter target value') :
    value = value' := by
  match run, run' with
  | .number _, .number _ => rfl
  | .formula run, .formula run' => rw [run.result_unique run']

end

/-! ## Every run that enters once is an evaluation -/

theorem evaluate_absolute (origin : Path) (entered : List Uid) (id : Uid) :
    (sheet.scope filter origin entered).evaluate (.absolute id) =
      ((sheet.scope filter origin).target (.absolute id)).map
        (sheet.scope filter origin entered).read := by
  rw [← Scope.target_entered sheet filter origin entered]
  rfl

theorem evaluate_relative (origin : Path) (entered : List Uid) (direction : Direction)
    (steps : Nat) :
    (sheet.scope filter origin entered).evaluate (.relative direction steps) =
      ((sheet.scope filter origin).target (.relative direction steps)).map
        (sheet.scope filter origin entered).read := by
  rw [← Scope.target_entered sheet filter origin entered]
  rfl

mutual

/-- A run of a text that enters none of the entered notes ends as the evaluation does. -/
theorem TextRun.evaluateText_eq {origin : Path} {text : String}
    {result : Except FormulaError Float} {entered : List Uid}
    (run : TextRun sheet filter origin text result) (hOnce : run.EntersOnce entered) :
    (sheet.scope filter origin entered).evaluateText text = result := by
  match run, hOnce with
  | .refused parsed, _ => exact Scope.evaluateText_of_parse_error parsed
  | .evaluated parsed run, hOnce =>
      rw [Scope.evaluateText_of_parse parsed, run.evaluate_eq hOnce]

/-- A run of an expression that enters none of the entered notes ends as the evaluation
does. -/
theorem ExprRun.evaluate_eq {origin : Path} {expr : Expr}
    {result : Except ReferenceError Float} {entered : List Uid}
    (run : ExprRun sheet filter origin expr result) (hOnce : run.EntersOnce entered) :
    (sheet.scope filter origin entered).evaluate expr = result := by
  match run, hOnce with
  | .number _, _ => rfl
  | .dangling lands, _ =>
      rw [evaluate_absolute, lands]
      rfl
  | .absolute lands run, hOnce =>
      rw [evaluate_absolute, lands]
      exact congrArg Except.ok (run.read_eq hOnce origin)
  | .relative lands run, hOnce =>
      rw [evaluate_relative, lands]
      exact congrArg Except.ok (run.read_eq hOnce origin)
  | .group run, hOnce => exact run.evaluate_eq hOnce
  | .negate run, hOnce => exact congrArg (Except.map fun x => -x) (run.evaluate_eq hOnce)
  | .binary leftRun rightRun, hOnce =>
      have hLeft := leftRun.evaluate_eq hOnce.1
      have hRight := rightRun.evaluate_eq hOnce.2
      unfold Scope.evaluate at hLeft hRight ⊢
      rw [Expr.evaluate, hLeft, hRight]
      rfl
  | .leftFails leftRun, hOnce =>
      have hLeft := leftRun.evaluate_eq hOnce
      unfold Scope.evaluate at hLeft ⊢
      rw [Expr.evaluate, hLeft]
      rfl
  | .rightFails leftRun rightRun, hOnce =>
      have hLeft := leftRun.evaluate_eq hOnce.1
      have hRight := rightRun.evaluate_eq hOnce.2
      unfold Scope.evaluate at hLeft hRight ⊢
      rw [Expr.evaluate, hLeft, hRight]
      rfl

/-- A run of what a reference lands on that enters none of the entered notes ends in what
is read there. -/
theorem TargetRun.read_eq {target : Target sheet.items} {value : Float} {entered : List Uid}
    (run : TargetRun sheet filter target value) (hOnce : run.EntersOnce entered)
    (origin : Path) : (sheet.scope filter origin entered).read target = value := by
  match run, hOnce with
  | .number value, _ => exact Scope.read_number _ value
  | .formula run, hOnce =>
      rw [Sheet.read_note_of_not_mem origin hOnce.1, run.evaluateText_eq hOnce.2]

end

/-! ## Every number has a run that enters once -/

/-- A number that an expression evaluates to has a run, given the runs of the numbers that
it reads. -/
theorem exists_exprRun {origin : Path} {entered : List Uid}
    (hTargets : ∀ target : Target sheet.items,
      (sheet.scope filter origin entered).read target ≠ Number.nan →
        ∃ run : TargetRun sheet filter target ((sheet.scope filter origin entered).read target),
          run.EntersOnce entered)
    {expr : Expr} {x : Float}
    (hValue : (sheet.scope filter origin entered).evaluate expr = .ok x)
    (hNumber : x ≠ Number.nan) :
    ∃ run : ExprRun sheet filter origin expr (.ok x), run.EntersOnce entered := by
  induction expr generalizing x with
  | number value =>
      cases hValue
      exact ⟨.number value, trivial⟩
  | absolute id =>
      rw [evaluate_absolute] at hValue
      obtain ⟨target, lands, rfl⟩ := exists_of_map_eq_ok hValue
      obtain ⟨run, hOnce⟩ := hTargets target hNumber
      exact ⟨.absolute lands run, hOnce⟩
  | relative direction steps =>
      rw [evaluate_relative] at hValue
      obtain ⟨target, lands, rfl⟩ := exists_of_map_eq_ok hValue
      obtain ⟨run, hOnce⟩ := hTargets target hNumber
      exact ⟨.relative lands run, hOnce⟩
  | group inner ih =>
      obtain ⟨run, hOnce⟩ := ih hValue hNumber
      exact ⟨.group run, hOnce⟩
  | negate operand ih =>
      obtain ⟨y, hOperand, rfl⟩ := Expr.evaluate_negate_eq_ok hValue
      have hY : y ≠ Number.nan := by
        rintro rfl
        exact hNumber Number.neg_nan
      obtain ⟨run, hOnce⟩ := ih hOperand hY
      exact ⟨.negate run, hOnce⟩
  | binary operator left right ihLeft ihRight =>
      obtain ⟨y, z, hLeft, hRight, rfl⟩ := Expr.evaluate_binary_eq_ok hValue
      obtain ⟨hY, hZ⟩ := Operator.ne_nan_of_apply hNumber
      obtain ⟨leftRun, hLeftOnce⟩ := ihLeft hLeft hY
      obtain ⟨rightRun, hRightOnce⟩ := ihRight hRight hZ
      exact ⟨.binary leftRun rightRun, hLeftOnce, hRightOnce⟩

/-- A number that a formula text evaluates to has a run, given the runs of the numbers
that it reads. -/
theorem exists_textRun {origin : Path} {entered : List Uid}
    (hTargets : ∀ target : Target sheet.items,
      (sheet.scope filter origin entered).read target ≠ Number.nan →
        ∃ run : TargetRun sheet filter target ((sheet.scope filter origin entered).read target),
          run.EntersOnce entered)
    {text : String} {x : Float}
    (hValue : (sheet.scope filter origin entered).evaluateText text = .ok x)
    (hNumber : x ≠ Number.nan) :
    ∃ run : TextRun sheet filter origin text (.ok x), run.EntersOnce entered := by
  obtain ⟨expr, parsed, hExpr⟩ := Scope.parse_of_evaluateText hValue
  obtain ⟨run, hOnce⟩ := exists_exprRun hTargets hExpr hNumber
  exact ⟨.evaluated parsed run, hOnce⟩

/-- What reads as a number has a run that enters none of the entered notes: had one of
them been met again, it would have read as not a number, and so would all else. -/
theorem exists_targetRun (sheet : Sheet) (filter : Filter) (entered : List Uid) (origin : Path)
    (target : Target sheet.items)
    (hNumber : (sheet.scope filter origin entered).read target ≠ Number.nan) :
    ∃ run : TargetRun sheet filter target ((sheet.scope filter origin entered).read target),
      run.EntersOnce entered := by
  induction entered using sheet.entered_induction generalizing origin target with
  | step entered ih =>
      cases target with
      | number value =>
          rw [Scope.read_number]
          exact ⟨.number value, trivial⟩
      | formula note path =>
          have hNew : note.id ∉ entered := fun hMem =>
            hNumber (Sheet.read_note_of_mem origin hMem path)
          rw [Sheet.read_note_of_not_mem origin hNew] at hNumber ⊢
          cases hValue : (sheet.scope filter path (note.id :: entered)).evaluateText note.text with
          | error fault =>
              rw [hValue] at hNumber
              exact absurd rfl hNumber
          | ok x =>
              rw [hValue] at hNumber
              obtain ⟨run, hOnce⟩ := exists_textRun (ih note hNew path) hValue hNumber
              exact ⟨.formula run, hNew, hOnce⟩

/-! ## The guarded evaluation -/

/-- **The guard is sound**: every number that a formula evaluates to is derived without
the guard, by a run in which no chain of references enters a note twice; and the result
of any such run, a value or a failure, is what the formula evaluates to. -/
theorem evaluateText_sound (sheet : Sheet) (filter : Filter) (origin : Path) (text : String) :
    (∀ x, (sheet.scope filter origin).evaluateText text = .ok x → x ≠ Number.nan →
      ∃ run : TextRun sheet filter origin text (.ok x), run.EntersOnce []) ∧
    (∀ result, ∀ run : TextRun sheet filter origin text result, run.EntersOnce [] →
      (sheet.scope filter origin).evaluateText text = result) := by
  constructor
  · intro x hValue hNumber
    exact exists_textRun (exists_targetRun sheet filter [] origin) hValue hNumber
  · intro result run hOnce
    exact run.evaluateText_eq hOnce

end NoteSheet.Unguarded
