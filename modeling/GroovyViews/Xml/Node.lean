import GroovyViews.Xml.Name
import GroovyViews.Xml.Position
import GroovyViews.Xml.Scope
import GroovyViews.Text

/-!
# The tree of a document

A node is an element with its content, a text, a comment or a processing instruction. An `Element`
is a view of an element node; it answers the questions that a reader of views asks.
-/

namespace GroovyViews.Xml

/-- An attribute with its name resolved. -/
structure Attribute where
  /-- The resolved name. -/
  name : ExpandedName
  /-- The value in normal form. -/
  value : String
  deriving DecidableEq, Repr

/-- What a start tag says about its element. -/
structure StartTag where
  /-- The resolved name. -/
  name : ExpandedName
  /-- The attributes in written order, without namespace declarations. -/
  attributes : List Attribute
  /-- The namespace declarations of the tag itself, in written order. -/
  declarations : List Binding
  /-- The bindings that hold at the element. -/
  scope : Scope
  /-- Where the tag begins. -/
  position : Position
  deriving DecidableEq, Repr

/-- A node of a document. -/
inductive Node where
  /-- An element with its content. -/
  | element (tag : StartTag) (content : List Node)
  /-- Character data. -/
  | text (content : String)
  /-- A comment. -/
  | comment (content : String)
  /-- A processing instruction. -/
  | instruction (target : String) (content : String)
  deriving Repr

/-- An element node, taken apart. -/
structure Element where
  /-- The start tag. -/
  tag : StartTag
  /-- What stands between the tags. -/
  content : List Node
  deriving Repr

/-- An element in its surroundings. -/
structure Placed where
  /-- The number of elements around it. -/
  depth : Nat
  /-- The bindings that hold right outside of it. -/
  outer : Scope
  /-- The element itself. -/
  element : Element

namespace Node

/-- The node as an element, if it is one. -/
def element? : Node → Option Element
  | element tag content => some ⟨tag, content⟩
  | _ => none

/-- The character data before the first element, with comments and instructions left out. -/
def leadingText : List Node → String
  | [] => ""
  | text t :: rest => t ++ leadingText rest
  | element _ _ :: _ => ""
  | comment _ :: rest | instruction _ _ :: rest => leadingText rest

mutual

/-- The elements of a node in document order, each with its depth and the bindings around it. -/
def placed (depth : Nat) (outer : Scope) : Node → List Placed
  | element tag content =>
    ⟨depth, outer, ⟨tag, content⟩⟩ :: placedAll (depth + 1) tag.scope content
  | text _ | comment _ | instruction _ _ => []

/-- The elements of several nodes in document order. -/
def placedAll (depth : Nat) (outer : Scope) : List Node → List Placed
  | [] => []
  | n :: rest => placed depth outer n ++ placedAll depth outer rest

end

end Node

namespace Element

/-- The element as a node. -/
def node (e : Element) : Node := .element e.tag e.content

/-- The resolved name. -/
def name (e : Element) : ExpandedName := e.tag.name

/-- Where the element begins. -/
def position (e : Element) : Position := e.tag.position

/-- The child elements in order. -/
def children (e : Element) : List Element := e.content.filterMap Node.element?

/-- The element has a child element. -/
def hasChildren (e : Element) : Bool := !e.children.isEmpty

/-- The first prefix bound to a namespace at the element. -/
def prefixOf? (e : Element) (uri : String) : Option String := e.tag.scope.prefixOf? uri

/-- The name with the prefix that the element's scope gives to its namespace. -/
def shownName (e : Element) : String :=
  match e.name.uri.bind e.prefixOf? with
  | some pfx => s!"{pfx}:{e.name.localName}"
  | none => e.name.localName

/-- The value of the first attribute with a local name, in whatever namespace. -/
def attr? (e : Element) (localName : String) : Option String :=
  (e.tag.attributes.find? fun a => a.name.localName == localName).map Attribute.value

/-- The character data before the first child element, unless it is all white space. -/
def text? (e : Element) : Option String :=
  let text := Node.leadingText e.content
  if Text.allBlank text then none else some text

/-- The descendant reached by taking, at each step, the child element with the given number. -/
def descendant? (e : Element) : List Nat → Option Element
  | [] => some e
  | i :: path => e.children[i]?.bind fun c => c.descendant? path

end Element

end GroovyViews.Xml
