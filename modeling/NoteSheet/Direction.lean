import NoteSheet.Error

/-!
# Directions

The four directions in which neighbors are sought, with the letters that name
them in references, their full names, and the arrow keys.
-/

namespace NoteSheet

/-- A direction on the page. -/
inductive Direction where
  | left
  | right
  | up
  | down
deriving DecidableEq, Repr

namespace Direction

/-- Every direction. -/
def all : List Direction := [left, right, up, down]

/-- The capital letter that names a direction in a reference. -/
def letter : Direction → Char
  | left => 'L'
  | right => 'R'
  | up => 'U'
  | down => 'D'

/-- The full name of a direction. -/
def name : Direction → String
  | left => "left"
  | right => "right"
  | up => "up"
  | down => "down"

/-- The arrow key of a direction. -/
def key : Direction → String
  | left => "ArrowLeft"
  | right => "ArrowRight"
  | up => "ArrowUp"
  | down => "ArrowDown"

/-- The direction that points the other way. -/
def opposite : Direction → Direction
  | left => right
  | right => left
  | up => down
  | down => up

/-- The direction of a letter in either case. -/
def ofLetter? (c : Char) : Option Direction := all.find? (·.letter == c.toUpper)

/-- Reads a direction letter in either case. -/
def ofLetter (c : Char) : Except Error Direction :=
  match ofLetter? c with
  | some direction => .ok direction
  | none => .error (.invalidDirectionLetter c)

/-- Reads the code of an arrow key. -/
def ofKey (code : String) : Except Error Direction :=
  match all.find? (·.key == code) with
  | some direction => .ok direction
  | none => .error (.invalidDirection code)

/-- Reads a direction: a text of one character as a letter, any longer text as a
name. Case does not matter in either. -/
def parse (text : String) : Except Error Direction :=
  match text.toList with
  | [c] => ofLetter c
  | _ =>
      match all.find? (·.name == text.toLower) with
      | some direction => .ok direction
      | none => .error (.invalidDirection text)

end Direction

end NoteSheet
