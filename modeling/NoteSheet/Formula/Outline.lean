import NoteSheet.Decimal.Style
import NoteSheet.Formula.Expr

/-!
# Outlines of expressions

An outline writes a tree over several lines, one field a line, each level
indented by four more blanks. A node with named fields has them in braces, a node
with one unnamed field has it in parentheses, and every field ends with a comma.
-/

namespace NoteSheet

/-- A line of an outline and how many levels it is indented. -/
structure OutlineLine where
  depth : Nat
  text : String

/-- A tree over several lines. -/
structure Outline where
  lines : List OutlineLine

namespace Outline

/-- A tree without fields. -/
def leaf (text : String) : Outline := ⟨[⟨0, text⟩]⟩

/-- The same line one level further in. -/
def deeper (line : OutlineLine) : OutlineLine := ⟨line.depth + 1, line.text⟩

/-- The same line with a comma at its end. -/
def withComma (line : OutlineLine) : OutlineLine := ⟨line.depth, line.text ++ ","⟩

/-- A field one level in: `label` before its first line, a comma after its last. -/
def field (label : String) (value : Outline) : List OutlineLine :=
  match value.lines with
  | [] => []
  | first :: rest =>
      let labelled := (⟨first.depth, label ++ first.text⟩ :: rest).map deeper
      labelled.dropLast ++ labelled.getLast?.toList.map withComma

/-- A node with one unnamed field. -/
def wrap (name : String) (inner : Outline) : Outline :=
  ⟨⟨0, name ++ "("⟩ :: field "" inner ++ [⟨0, ")"⟩]⟩

/-- A node with named fields. -/
def record (name : String) (fields : List (String × Outline)) : Outline :=
  ⟨⟨0, name ++ " \x7b"⟩ :: (fields.flatMap fun entry => field (entry.1 ++ ": ") entry.2) ++
    [⟨0, "\x7d"⟩]⟩

/-- A line with its indentation. -/
def renderLine (line : OutlineLine) : String :=
  String.ofList (List.replicate (4 * line.depth) ' ') ++ line.text

/-- An outline as text, without a line end after its last line. -/
def render (outline : Outline) : String := "\n".intercalate (outline.lines.map renderLine)

end Outline

/-- How an outline names an operator. -/
def Operator.outlineName : Operator → String
  | add => "Add"
  | subtract => "Subtract"
  | multiply => "Multiply"
  | divide => "Divide"

/-- How an outline names a direction. -/
def Direction.outlineName : Direction → String
  | left => "Left"
  | right => "Right"
  | up => "Up"
  | down => "Down"

/-- The outline of an expression. -/
def Expr.outline : Expr → Outline
  | .number value => .wrap "Value" (.leaf (Style.tree.write value))
  | .absolute id => .wrap "AbsoluteReference" (.wrap "Uid" (.leaf ("\"" ++ id.text ++ "\"")))
  | .relative direction steps =>
      .wrap "RelativeReference" (.record "RelativeReference"
        [("direction", .leaf direction.outlineName), ("offset", .leaf (Nat.repr steps))])
  | .group inner => .wrap "Grouping" inner.outline
  | .negate operand => .record "Unary" [("op", .leaf "Negate"), ("operand", operand.outline)]
  | .binary operator left right =>
      .record "Binary" [("op", .leaf operator.outlineName), ("left", left.outline),
        ("right", right.outline)]

end NoteSheet
