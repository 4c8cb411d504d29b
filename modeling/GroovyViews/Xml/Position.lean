/-!
# Positions in a text

A position is a row and a column, both counted from one. A line feed starts a new row; every other
character, a carriage return too, takes one column.
-/

namespace GroovyViews.Xml

/-- A place in a text. -/
structure Position where
  /-- The row, from one. -/
  row : Nat
  /-- The column in the row, from one. -/
  column : Nat
  deriving DecidableEq, Repr

namespace Position

/-- The first character of a text. -/
def start : Position := ⟨1, 1⟩

/-- The position after a character. -/
def next (p : Position) (c : Char) : Position :=
  if c = '\n' then ⟨p.row + 1, 1⟩ else ⟨p.row, p.column + 1⟩

/-- The position after several characters. -/
def advance (p : Position) (cs : List Char) : Position := cs.foldl next p

/-- Row and column with a colon between them. -/
def short (p : Position) : String := s!"{p.row}:{p.column}"

/-- Row and column in words. -/
def describe (p : Position) : String := s!"line {p.row}, column {p.column}"

end Position

end GroovyViews.Xml
