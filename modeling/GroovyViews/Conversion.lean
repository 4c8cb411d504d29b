import GroovyViews.Emission

/-!
# Conversions

A conversion turns one view into a Groovy view: the preamble, the statements from the start element
on, and a flush. Nothing is written before the view has been read as a whole.
-/

namespace GroovyViews

/-- A view to convert and how. -/
structure Conversion where
  /-- The text of the view. -/
  source : String
  /-- The file it was loaded from, if it was. -/
  path : Option String
  /-- The options. -/
  options : Options
  deriving DecidableEq, Repr

namespace Conversion

/-- The steps of a conversion. -/
def emission (c : Conversion) : Emission Unit := do
  let view ← Emission.ofReading (View.read c.source)
  let start ← Emission.ofReading view.start
  if let some path := c.path then Emission.notice (.converting path start.shownName)
  let writer : Writer := ⟨view.prefixes, c.options⟩
  writer.preamble
  writer.element 0 start
  .report .flush

/-- The converted view. -/
def text (c : Conversion) : Except ConversionError String :=
  match c.emission.outcome with
  | .ok _ => .ok c.emission.text
  | .error e => .error e

end Conversion

end GroovyViews
