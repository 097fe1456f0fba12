import NoteSheet.Direction
import NoteSheet.Uid

/-!
# Formula expressions

The tree of a formula: numbers, references to cells, and the four arithmetic
operations in double precision. Division by zero is not a fault; it gives
infinity or a value that is not a number.
-/

namespace NoteSheet

/-- An operation on two numbers. -/
inductive Operator where
  | add
  | subtract
  | multiply
  | divide
deriving DecidableEq, Repr

namespace Operator

/-- Every operator. -/
def all : List Operator := [add, subtract, multiply, divide]

/-- The result of an operation. -/
def apply : Operator → Float → Float → Float
  | add, a, b => a + b
  | subtract, a, b => a - b
  | multiply, a, b => a * b
  | divide, a, b => a / b

/-- How an operator is written. -/
def symbol : Operator → Char
  | add => '+'
  | subtract => '-'
  | multiply => '*'
  | divide => '/'

end Operator

/-- A formula. -/
inductive Expr where
  | number (value : Float)
  /-- The cell of a given item. -/
  | absolute (id : Uid)
  /-- The cell a number of steps away; no step at all names the formula's own cell. -/
  | relative (direction : Direction) (steps : Nat)
  /-- An expression in parentheses. -/
  | group (inner : Expr)
  | negate (operand : Expr)
  | binary (operator : Operator) (left right : Expr)
deriving DecidableEq

end NoteSheet
