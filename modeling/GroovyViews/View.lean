import GroovyViews.Notice
import GroovyViews.Traced
import GroovyViews.Xml.Document

/-!
# Views

A view is a document together with the table of its prefixes. Reading one collects every
declaration of the document before any element is looked at, and the conversion starts at the root
or, if the root is only a wrapper, at its first child element.
-/

namespace GroovyViews

/-- A view that has been read. -/
structure View where
  /-- The tree. -/
  document : Xml.Document
  /-- The prefixes declared anywhere in it. -/
  prefixes : PrefixTable

/-- A step of reading: it may leave notices and may find the view wrong. -/
abbrev Reading := Traced Notice ViewError

/-- The bindings that an element adds to those around it, without the reserved namespace. -/
def Xml.Placed.introduced (p : Xml.Placed) : List Xml.Binding :=
  p.element.tag.scope.filter fun b => b.uri ≠ Xml.xmlUri && !p.outer.contains b

namespace PrefixTable

/-- Adds a declaration and leaves a notice if it is a new one. -/
def note (t : PrefixTable) (b : Xml.Binding) : Reading PrefixTable := do
  let t' ← .ofExcept (t.add b)
  unless t.entries.contains b do .report (.declared b)
  return t'

/-- The table of a document: the bindings that its elements introduce, in document order. -/
def ofDocument (d : Xml.Document) : Reading PrefixTable := do
  let introduced := (Xml.Node.placedAll 0 [] d.nodes).flatMap Xml.Placed.introduced
  let t ← introduced.foldlM note empty
  .report (.collected t.entries.length d.root.shownName)
  return t

end PrefixTable

/-- An element's attribute that has to be there. -/
def Xml.Element.required (e : Xml.Element) (localName : String) : Except ViewError String :=
  match e.attr? localName with
  | some value => .ok value
  | none => .error (.missingAttribute localName e.shownName e.position)

namespace View

/-- Reads a view. -/
def read (source : String) : Reading View := do
  let document ← .ofExcept ((Xml.Document.parse source).mapError .malformed)
  let prefixes ← PrefixTable.ofDocument document
  .report (.parsed document.root.shownName)
  return ⟨document, prefixes⟩

/-- An element whose local name ends in `jelly` only wraps a view. -/
def isWrapper (e : Xml.Element) : Bool := "jelly".toList.isSuffixOf e.name.localName.toList

/-- The element at which the conversion starts. -/
def start (v : View) : Reading Xml.Element := do
  let root := v.document.root
  if isWrapper root then
    match root.children with
    | [] => .fail (.emptyWrapper root.shownName)
    | first :: others =>
      unless others.isEmpty do
        .report (.siblingsIgnored root.shownName others.length first.shownName)
      return first
  else return root

/-- The elements of the root with their depths, in document order. -/
def elements (v : View) : List Xml.Placed := v.document.root.node.placed 0 []

end View

end GroovyViews
