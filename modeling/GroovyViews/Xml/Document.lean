import GroovyViews.Xml.Event.Content
import GroovyViews.Xml.Node.Assembly

/-!
# Documents

A document is its root element with what stands before and after it. Reading one checks the text and
the tree at once: the first fault in the order of the text is the one reported.
-/

namespace GroovyViews.Xml

/-- A document. An entity value may close the root early, so elements can also come after it. -/
structure Document where
  /-- The nodes before the root; none of them is an element. -/
  before : List Node
  /-- The root element. -/
  root : Element
  /-- The nodes after the root. -/
  after : List Node
  deriving Repr

namespace Document

/-- All nodes at the top. -/
def nodes (d : Document) : List Node := d.before ++ d.root.node :: d.after

/-- A list of nodes parted at its first element. -/
def ofNodes? : List Node → Option Document
  | [] => none
  | .element tag content :: rest => some ⟨[], ⟨tag, content⟩, rest⟩
  | n :: rest => (ofNodes? rest).map fun d => { d with before := n :: d.before }

/-- The document of a finished assembly. -/
def ofAssembly (a : Assembly) : Except Fault Document :=
  if !a.frames.isEmpty then .error .unclosedRoot
  else
    match ofNodes? a.top.reverse with
    | some d => .ok d
    | none => .error .noRoot

/-- The document that a text describes. Every event comes before the fault that ends the text, so a
fault of the tree wins over one of the text. -/
def parse (source : String) : Except Fault Document := do
  let events := Event.ofText source
  let assembly ← Assembly.ofEvents events.trace
  events.outcome
  ofAssembly assembly

end Document

end GroovyViews.Xml
