import GroovyViews.Text

/-!
# Paths

A path is a list of names with slashes between them. The names `.` and `..` stand for a directory
itself and for the one around it. A path that begins with a slash starts at the root of the system
and any other one at the working directory.
-/

namespace GroovyViews

/-- A path as it is written. -/
structure Path where
  /-- The text of the path. -/
  text : String
  deriving DecidableEq, Repr

namespace Path

/-- The longest name that the system takes, in bytes. -/
def maxNameLength : Nat := 255

/-- The longest path that the system takes, in bytes. -/
def maxPathLength : Nat := 4095

/-- The pieces between slashes. -/
def splitAtSlashes : List Char → List (List Char)
  | [] => [[]]
  | c :: cs =>
    if c = '/' then [] :: splitAtSlashes cs
    else
      match splitAtSlashes cs with
      | [] => [[c]]
      | piece :: rest => (c :: piece) :: rest

/-- The pieces between the slashes of the path, empty ones included. -/
def pieces (p : Path) : List String := (splitAtSlashes p.text.toList).map String.ofList

/-- The names of the path, `.` and `..` among them; slashes in a row count as one. -/
def names (p : Path) : List String := p.pieces.filter fun piece => !piece.isEmpty

/-- The path starts at the root of the system. -/
def isAbsolute (p : Path) : Bool := p.text.toList.head? = some '/'

/-- The path ends with a slash, so it can only mean a directory. -/
def slashAtEnd (p : Path) : Bool := p.text.toList.getLast? = some '/'

/-- The path holds the character that ends a text in the system's own encoding. -/
def hasNul (p : Path) : Bool := p.text.toList.any fun c => c.toNat = 0

/-- The path is longer than the system takes. -/
def isTooLong (p : Path) : Bool := maxPathLength < (Text.bytes p.text).length

/-- A name that stands for a directory by its position and not for an entry. -/
def isDots (name : String) : Bool := name == "." || name == ".."

/-- The name is longer than the system takes. -/
def isLongName (name : String) : Bool := maxNameLength < (Text.bytes name).length

/-- The names of the directory that a file with this path would be put in. -/
def directory (p : Path) : List String := (p.names.filter (· ≠ ".")).dropLast

/-- The path is no more than a starting point: it leads on to no other place. -/
def isBare (p : Path) : Bool := p.names.all (· == ".")

/-- The length in bytes of the path up to the last name, without the slashes and dots before it. -/
def directoryLength (p : Path) : Nat :=
  let trim := List.dropWhile fun piece : String => piece.isEmpty || piece == "."
  let kept := trim (trim p.pieces.reverse).tail
  kept.foldl (fun n piece => n + (Text.bytes piece).length + 1) 0 - 1

end Path

end GroovyViews
