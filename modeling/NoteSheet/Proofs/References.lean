import NoteSheet.Evaluation
import NoteSheet.Proofs.NotANumber

/-!
# References and results

An expression sees the rest of the sheet through its references only. Here a
reference is data, the references of a formula are a list, and the value of an
expression is compared across two ways of reading them.

Main statements: `Expr.evaluate_related` (related readings give related results, for
every relation that arithmetic keeps) and `Expr.read_of_evaluate` (a number comes only
from numbers: nothing that is read is left out of the result).
-/

namespace NoteSheet

/-- A reference in a formula. -/
inductive Reference where
  | absolute (id : Uid)
  | relative (direction : Direction) (steps : Nat)
deriving DecidableEq

/-- The result of a reference, given how each kind is read. -/
def Reference.read (absolute : Uid → Except ReferenceError Float)
    (relative : Direction → Nat → Float) : Reference → Except ReferenceError Float
  | .absolute id => absolute id
  | .relative direction steps => .ok (relative direction steps)

namespace Expr

/-- The references of an expression, from left to right. -/
def references : Expr → List Reference
  | .number _ => []
  | .absolute id => [.absolute id]
  | .relative direction steps => [.relative direction steps]
  | .group inner => inner.references
  | .negate operand => operand.references
  | .binary _ left right => left.references ++ right.references

/-- The references of a formula text; a text that is no formula has none. -/
def referencesIn (text : String) : List Reference :=
  match parse text with
  | .ok expr => expr.references
  | .error _ => []

end Expr

/-! ## Results with a value -/

section Results

variable {ε δ α β : Type}

/-- A result that has a value after a change of values had one before. -/
theorem exists_of_map_eq_ok {f : α → β} {result : Except ε α} {y : β}
    (h : result.map f = .ok y) : ∃ x, result = .ok x ∧ f x = y := by
  cases result with
  | error fault => cases h
  | ok x =>
      cases h
      exact ⟨x, rfl, rfl⟩

/-- A change of failures leaves values as they are. -/
theorem eq_ok_of_mapError {f : ε → δ} {result : Except ε α} {x : α}
    (h : result.mapError f = .ok x) : result = .ok x := by
  cases result with
  | error fault => cases h
  | ok y =>
      cases h
      rfl

end Results

/-! ## Results compared -/

/-- Two results that fail alike or have related values. -/
inductive Related {ε : Type} (R : Float → Float → Prop) : Except ε Float → Except ε Float → Prop
  | ok {x y : Float} (h : R x y) : Related R (.ok x) (.ok y)
  | error (fault : ε) : Related R (.error fault) (.error fault)

/-- A relation between numbers that arithmetic keeps. -/
structure Arithmetical (R : Float → Float → Prop) : Prop where
  refl : ∀ x, R x x
  neg : ∀ {x y}, R x y → R (-x) (-y)
  apply : ∀ (operator : Operator) {x y x' y'}, R x y → R x' y' →
    R (operator.apply x x') (operator.apply y y')

theorem Arithmetical.eq : Arithmetical Eq where
  refl _ := rfl
  neg h := by rw [h]
  apply _ _ _ _ _ h h' := by rw [h, h']

namespace Related

variable {ε : Type} {R : Float → Float → Prop}

theorem refl (hRefl : ∀ x, R x x) : ∀ result : Except ε Float, Related R result result
  | .ok x => .ok (hRefl x)
  | .error fault => .error fault

/-- Results related by equality are equal. -/
theorem eq {first second : Except ε Float} (h : Related Eq first second) : first = second := by
  cases h with
  | ok h => rw [h]
  | error fault => rfl

theorem mapError {δ : Type} {first second : Except ε Float} (h : Related R first second)
    (f : ε → δ) : Related R (first.mapError f) (second.mapError f) := by
  cases h with
  | ok h => exact .ok h
  | error fault => exact .error (f fault)

end Related

namespace Number

/-- The number that a result counts as inside another formula. -/
def ofResult {ε : Type} : Except ε Float → Float
  | .ok x => x
  | .error _ => nan

/-- The first number is the second one, unless it is not a number. -/
def Blurs (x y : Float) : Prop := x = nan ∨ x = y

theorem Blurs.nan (y : Float) : Blurs Number.nan y := Or.inl rfl

theorem Blurs.refl (x : Float) : Blurs x x := Or.inr rfl

/-- What stays a number under a blur is unchanged. -/
theorem Blurs.eq {x y : Float} (h : Blurs x y) (hNumber : x ≠ Number.nan) : x = y :=
  h.resolve_left hNumber

theorem Blurs.neg {x y : Float} (h : Blurs x y) : Blurs (-x) (-y) := by
  rcases h with rfl | rfl
  · rw [neg_nan]
    exact .nan _
  · exact .refl _

theorem Blurs.apply (operator : Operator) {x y x' y' : Float} (h : Blurs x y)
    (h' : Blurs x' y') : Blurs (operator.apply x x') (operator.apply y y') := by
  rcases h with rfl | rfl
  · rw [Operator.apply_nan_left]
    exact .nan _
  · rcases h' with rfl | rfl
    · rw [Operator.apply_nan_right]
      exact .nan _
    · exact .refl _

/-- A blurred result fails as the result does, or is cut off, or is unchanged. -/
theorem Blurs.result_cases {ε : Type} {first second : Except ε Float}
    (h : Related Blurs first second) :
    (∃ fault, first = .error fault ∧ second = .error fault) ∨
      (∃ y, first = .ok Number.nan ∧ second = .ok y) ∨ (∃ y, first = .ok y ∧ second = .ok y) := by
  cases h with
  | error fault => exact Or.inl ⟨fault, rfl, rfl⟩
  | ok h =>
      rcases h with rfl | rfl
      · exact Or.inr (Or.inl ⟨_, rfl, rfl⟩)
      · exact Or.inr (Or.inr ⟨_, rfl, rfl⟩)

theorem Blurs.ofResult {ε : Type} {first second : Except ε Float}
    (h : Related Blurs first second) :
    Blurs (Number.ofResult first) (Number.ofResult second) := by
  cases h with
  | ok h => exact h
  | error fault => exact .refl _

/-- What a blurred result counts as is not a number, or it is the value. -/
theorem Blurs.ofResult_or_value {ε : Type} {first second : Except ε Float}
    (h : Related Blurs first second) :
    Number.ofResult first = Number.nan ∨ second = .ok (Number.ofResult first) := by
  rcases result_cases h with ⟨fault, hFirst, -⟩ | ⟨y, hFirst, -⟩ | ⟨y, hFirst, hSecond⟩
  · rw [hFirst]
    exact Or.inl rfl
  · rw [hFirst]
    exact Or.inl rfl
  · rw [hFirst, hSecond]
    exact Or.inr rfl

/-- A blurred failure does not count as a number. -/
theorem Blurs.ofResult_of_error {ε : Type} {first : Except ε Float} {fault : ε}
    (h : Related Blurs first (.error fault)) : Number.ofResult first = Number.nan := by
  cases h with
  | error fault => rfl

end Number

/-- What is computed from a blurred number is blurred too. -/
theorem Arithmetical.blurs : Arithmetical Number.Blurs where
  refl := .refl
  neg := .neg
  apply := .apply

/-! ## Expressions -/

namespace Expr

variable {absolute absolute' : Uid → Except ReferenceError Float}
  {relative relative' : Direction → Nat → Float}

theorem evaluate_negate (operand : Expr) :
    (Expr.negate operand).evaluate absolute relative =
      (operand.evaluate absolute relative).map fun x => -x := rfl

theorem evaluate_negate_eq_bind (operand : Expr) :
    (negate operand).evaluate absolute relative =
      operand.evaluate absolute relative >>= fun x => .ok (-x) := by
  rw [evaluate_negate]
  cases operand.evaluate absolute relative <;> rfl

theorem evaluate_negate_eq_ok {operand : Expr} {x : Float}
    (h : (Expr.negate operand).evaluate absolute relative = .ok x) :
    ∃ y, operand.evaluate absolute relative = .ok y ∧ x = -y := by
  rw [evaluate_negate] at h
  obtain ⟨y, hOperand, hNegated⟩ := exists_of_map_eq_ok h
  exact ⟨y, hOperand, hNegated.symm⟩

/-- An operation has a value when both operands have one. -/
theorem evaluate_binary_eq_ok {operator : Operator} {left right : Expr} {x : Float}
    (h : (Expr.binary operator left right).evaluate absolute relative = .ok x) :
    ∃ y z, left.evaluate absolute relative = .ok y ∧
      right.evaluate absolute relative = .ok z ∧ x = operator.apply y z := by
  unfold evaluate at h
  cases hLeft : left.evaluate absolute relative with
  | error fault =>
      rw [hLeft] at h
      cases h
  | ok y =>
      cases hRight : right.evaluate absolute relative with
      | error fault =>
          rw [hLeft, hRight] at h
          cases h
      | ok z =>
          rw [hLeft, hRight] at h
          cases h
          exact ⟨y, z, rfl, rfl, rfl⟩

/-- **Related readings**: when all references of an expression are read alike up to a
relation that arithmetic keeps, so is the expression. -/
theorem evaluate_related {R : Float → Float → Prop} (hR : Arithmetical R) {expr : Expr}
    (hReads : ∀ ref ∈ expr.references,
      Related R (ref.read absolute relative) (ref.read absolute' relative')) :
    Related R (expr.evaluate absolute relative) (expr.evaluate absolute' relative') := by
  induction expr with
  | number value => exact .ok (hR.refl value)
  | absolute id => exact hReads (.absolute id) (by simp [references])
  | relative direction steps => exact hReads (.relative direction steps) (by simp [references])
  | group inner ih => exact ih hReads
  | negate operand ih =>
      have hOperand := ih hReads
      rw [evaluate_negate, evaluate_negate]
      generalize operand.evaluate absolute relative = first at hOperand
      generalize operand.evaluate absolute' relative' = second at hOperand
      cases hOperand with
      | ok h => exact .ok (hR.neg h)
      | error fault => exact .error fault
  | binary operator left right ihLeft ihRight =>
      have hLeft := ihLeft fun ref hMem => hReads ref (by simp [references, hMem])
      have hRight := ihRight fun ref hMem => hReads ref (by simp [references, hMem])
      unfold evaluate
      generalize left.evaluate absolute relative = firstLeft at hLeft
      generalize left.evaluate absolute' relative' = secondLeft at hLeft
      generalize right.evaluate absolute relative = firstRight at hRight
      generalize right.evaluate absolute' relative' = secondRight at hRight
      cases hLeft with
      | error fault => exact .error fault
      | ok h =>
          cases hRight with
          | error fault => exact .error fault
          | ok h' => exact .ok (hR.apply operator h h')

/-- **Numbers come from numbers**: an expression that evaluates to a number reads
every one of its references, and reads a number there. -/
theorem read_of_evaluate {expr : Expr} {x : Float}
    (hValue : expr.evaluate absolute relative = .ok x) (hNumber : x ≠ Number.nan)
    {ref : Reference} (hMem : ref ∈ expr.references) :
    ∃ y, ref.read absolute relative = .ok y ∧ y ≠ Number.nan := by
  induction expr generalizing x with
  | number value => cases hMem
  | absolute id =>
      rw [references, List.mem_singleton] at hMem
      subst hMem
      exact ⟨x, hValue, hNumber⟩
  | relative direction steps =>
      rw [references, List.mem_singleton] at hMem
      subst hMem
      exact ⟨x, hValue, hNumber⟩
  | group inner ih => exact ih hValue hNumber hMem
  | negate operand ih =>
      obtain ⟨y, hOperand, rfl⟩ := evaluate_negate_eq_ok hValue
      refine ih hOperand ?_ hMem
      rintro rfl
      exact hNumber Number.neg_nan
  | binary operator left right ihLeft ihRight =>
      obtain ⟨y, z, hLeft, hRight, rfl⟩ := evaluate_binary_eq_ok hValue
      obtain ⟨hY, hZ⟩ := Operator.ne_nan_of_apply hNumber
      rcases List.mem_append.mp hMem with hMem | hMem
      · exact ihLeft hLeft hY hMem
      · exact ihRight hRight hZ hMem

end Expr

end NoteSheet
