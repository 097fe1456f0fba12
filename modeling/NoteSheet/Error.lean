/-!
# Refused names

Everything that can be wrong with a name handed to the library: an item
identifier, an element path, a direction, or a path that a layout already
holds. Each cause is a constructor, and `Error.message` is the one place where
the wording lives.
-/

namespace NoteSheet

/-- What is wrong with the text of an element path. -/
inductive PathFault where
  /-- There is no text at all. -/
  | empty
  /-- The first segment, in text order, that is not one of the two segment forms. -/
  | malformedSegment (text : String)
deriving DecidableEq, Repr

/-- Why a name was refused. -/
inductive Error where
  /-- The text is not 32 hexadecimal digits. -/
  | invalidUid (text : String)
  /-- The text is not an element path. -/
  | invalidPath (fault : PathFault)
  /-- The character is none of the four direction letters. -/
  | invalidDirectionLetter (letter : Char)
  /-- The text is neither a direction name nor an arrow key. -/
  | invalidDirection (text : String)
  /-- The layout already places an element at this path. -/
  | duplicateElement (path : String)
deriving DecidableEq, Repr

/-- The wording of a path fault. -/
def PathFault.message : PathFault → String
  | .empty => "empty path"
  | .malformedSegment text => "malformed segment '" ++ text ++ "'"

/-- The wording of an error. -/
def Error.message : Error → String
  | .invalidUid text => "Invalid identifier: " ++ text
  | .invalidPath fault => "Invalid visual element path: " ++ fault.message
  | .invalidDirectionLetter letter => "Unexpected direction letter: " ++ letter.toString
  | .invalidDirection text => "Unexpected direction: " ++ text
  | .duplicateElement path => "Element already present in layout: " ++ path

end NoteSheet
