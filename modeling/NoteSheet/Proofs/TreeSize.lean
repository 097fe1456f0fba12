import NoteSheet.Proofs.Printing
import NoteSheet.Proofs.References

/-!
# The size of trees

A tree has no more nodes than its formula has tokens: each node is written with a token of its
own, and a group with one more, the parenthesis that closes it. As a formula has at most
`maxTokens` tokens, this bounds the trees that the parser builds, and with them how deep the
evaluator goes into one of them. The evaluator with a limit on its depth gives up below it; the
limit of the tokens is never met.

Main statements: `nodes_le_of_parse` and `evaluateWithin_of_depth_le`.
-/

namespace NoteSheet.Expr

/-- The number of nodes. -/
def nodes : Expr → Nat
  | number _ => 1
  | absolute _ => 1
  | relative _ _ => 1
  | group inner => inner.nodes + 1
  | negate operand => operand.nodes + 1
  | binary _ left right => left.nodes + right.nodes + 1

/-- The number of nodes that are groups. -/
def groups : Expr → Nat
  | number _ => 0
  | absolute _ => 0
  | relative _ _ => 0
  | group inner => inner.groups + 1
  | negate operand => operand.groups
  | binary _ left right => left.groups + right.groups

/-- The number of nodes on the longest way down from the root. -/
def depth : Expr → Nat
  | number _ => 1
  | absolute _ => 1
  | relative _ _ => 1
  | group inner => inner.depth + 1
  | negate operand => operand.depth + 1
  | binary _ left right => max left.depth right.depth + 1

/-- Every node takes a token, and a group takes two. -/
theorem tokenCount_eq (e : Expr) : e.tokenCount = e.nodes + e.groups := by
  induction e with
  | number value => rfl
  | absolute id => rfl
  | relative direction steps => rfl
  | group inner ih =>
      rw [tokenCount, nodes, groups, ih]
      omega
  | negate operand ih =>
      rw [tokenCount, nodes, groups, ih]
      omega
  | binary operator left right ihLeft ihRight =>
      rw [tokenCount, nodes, groups, ihLeft, ihRight]
      omega

theorem depth_le_nodes (e : Expr) : e.depth ≤ e.nodes := by
  induction e with
  | number value => exact Nat.le_refl 1
  | absolute id => exact Nat.le_refl 1
  | relative direction steps => exact Nat.le_refl 1
  | group inner ih => exact Nat.succ_le_succ ih
  | negate operand ih => exact Nat.succ_le_succ ih
  | binary operator left right ihLeft ihRight =>
      rw [depth, nodes]
      omega

/-- **Trees are bounded**: a tree that is parsed has no more nodes than a formula has tokens. -/
theorem nodes_le_of_parse {text : String} {e : Expr} (h : parse text = .ok e) :
    e.nodes ≤ maxTokens := by
  have hFew := length_pieces_le_of_parse h
  obtain ⟨front, rest, hSplit, hDerives, -⟩ := (parse_eq_ok_iff hFew).mp h
  have hCount : front.length = e.nodes + e.groups := hDerives.length_eq.trans e.tokenCount_eq
  rw [hSplit, List.length_append] at hFew
  omega

/-! ## Evaluation to a depth -/

section Evaluation

variable (absolute : Uid → Except ReferenceError Float) (relative : Direction → Nat → Float)

/-- The value of an expression, by an evaluation that goes at most `limit` nodes deep and gives
up where the tree goes on. -/
def evaluateWithin : (limit : Nat) → Expr → ExceptT ReferenceError Option Float
  | 0, _ => ExceptT.lift none
  | _ + 1, .number value => return value
  | _ + 1, .absolute id => ExceptT.mk (some (absolute id))
  | _ + 1, .relative direction steps => return relative direction steps
  | limit + 1, .group inner => evaluateWithin limit inner
  | limit + 1, .negate operand => do
      let x ← evaluateWithin limit operand
      return -x
  | limit + 1, .binary operator left right => do
      let x ← evaluateWithin limit left
      let y ← evaluateWithin limit right
      return operator.apply x y

/-- An operand that is evaluated to its end has a value to go on with, or fails. -/
theorem run_bind_of_run {run : ExceptT ReferenceError Option Float}
    {next : Float → ExceptT ReferenceError Option Float} {result : Except ReferenceError Float}
    {value : Float → Except ReferenceError Float} (hRun : run.run = some result)
    (hNext : ∀ x, (next x).run = some (value x)) :
    (run >>= next).run = some (result >>= value) := by
  rw [ExceptT.run_bind, hRun]
  cases result with
  | error fault => rfl
  | ok x => exact hNext x

/-- **Evaluation is as deep as the tree**: a limit that the tree does not exceed is not met. -/
theorem evaluateWithin_of_depth_le {limit : Nat} {e : Expr} (h : e.depth ≤ limit) :
    (e.evaluateWithin absolute relative limit).run = some (e.evaluate absolute relative) := by
  induction e generalizing limit with
  | number value =>
      obtain ⟨limit, rfl⟩ := Nat.exists_eq_add_of_le' h
      rfl
  | absolute id =>
      obtain ⟨limit, rfl⟩ := Nat.exists_eq_add_of_le' h
      rfl
  | relative direction steps =>
      obtain ⟨limit, rfl⟩ := Nat.exists_eq_add_of_le' h
      rfl
  | group inner ih =>
      obtain ⟨limit, rfl⟩ := Nat.exists_eq_add_of_le' (Nat.one_le_of_lt h)
      exact ih (Nat.le_of_succ_le_succ h)
  | negate operand ih =>
      obtain ⟨limit, rfl⟩ := Nat.exists_eq_add_of_le' (Nat.one_le_of_lt h)
      have hOperand := ih (Nat.le_of_succ_le_succ h)
      rw [evaluate_negate_eq_bind]
      exact run_bind_of_run hOperand fun x => rfl
  | binary operator left right ihLeft ihRight =>
      obtain ⟨limit, rfl⟩ := Nat.exists_eq_add_of_le' (Nat.one_le_of_lt h)
      have hBoth : max left.depth right.depth ≤ limit := Nat.le_of_succ_le_succ h
      have hLeft := ihLeft (Nat.le_trans (Nat.le_max_left _ _) hBoth)
      have hRight := ihRight (Nat.le_trans (Nat.le_max_right _ _) hBoth)
      exact run_bind_of_run hLeft fun x => run_bind_of_run hRight fun y => rfl

end Evaluation

end NoteSheet.Expr
