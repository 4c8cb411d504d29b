import GroovyViews.Xml.Event
import GroovyViews.Xml.Fault
import GroovyViews.Xml.Node

/-!
# Assembling nodes from events

The assembly keeps the elements that are open, the finished nodes beside them, and the attributes
and declarations that wait for their start tag. A tag that never ends leaves its attributes
waiting, and the next tag takes them.
-/

namespace GroovyViews.Xml

/-- An attribute whose prefix is not yet resolved. -/
structure WrittenAttribute where
  /-- The name as written. -/
  name : QName
  /-- The value in normal form. -/
  value : String
  /-- Where the name begins. -/
  position : Position
  deriving DecidableEq, Repr

/-- An open element. -/
structure Frame where
  /-- The name in the start tag, which the close tag has to repeat. -/
  name : QName
  /-- The resolved start tag. -/
  tag : StartTag
  /-- The content so far, the last node first. -/
  content : List Node
  deriving Repr

/-- The state of an assembly. -/
structure Assembly where
  /-- The namespace declarations that wait for their tag. -/
  declarations : List Binding
  /-- The attributes that wait for their tag. -/
  attributes : List WrittenAttribute
  /-- The open elements, the innermost first. -/
  frames : List Frame
  /-- The finished nodes outside of all elements, the last first. -/
  top : List Node
  deriving Repr

namespace Assembly

/-- Nothing read yet. -/
def empty : Assembly := ⟨[], [], [], []⟩

/-- The bindings at the innermost open element. -/
def scope (a : Assembly) : Scope :=
  match a.frames with
  | [] => []
  | f :: _ => f.tag.scope

/-- A node put after the nodes so far (the last of them first). Text is joined to text. -/
def append (n : Node) (nodes : List Node) : List Node :=
  match n, nodes with
  | .text t, .text s :: rest => .text (s ++ t) :: rest
  | n, nodes => n :: nodes

/-- Adds a finished node to the innermost open element. -/
def push (a : Assembly) (n : Node) : Assembly :=
  match a.frames with
  | [] => { a with top := append n a.top }
  | f :: rest => { a with frames := { f with content := append n f.content } :: rest }

/-- Takes in an attribute or a namespace declaration. -/
def attr (a : Assembly) (n : QName) (value : String) (pos : Position) : Except Fault Assembly :=
  let declare (pfx : String) : Assembly :=
    { a with declarations := a.declarations ++ [⟨pfx, value⟩] }
  if n.pfx = "xmlns" then
    if value = xmlnsUri then .error (.reservedXmlnsUri pos)
    else if n.localName = "xml" then
      if value = xmlUri then .ok a else .error (.wrongXmlUri pos)
    else if value = xmlUri then .error (.reservedXmlUri pos)
    else if a.declarations.any (·.pfx == n.localName) then
      .error (.duplicateDeclaration n.localName pos)
    else .ok (declare n.localName)
  else if n.localName = "xmlns" then
    if value = xmlUri then .error (.reservedXmlUri pos)
    else if value = xmlnsUri then .error (.reservedXmlnsUri pos)
    else .ok (declare "")
  else .ok { a with attributes := a.attributes ++ [⟨n, value, pos⟩] }

/-- The namespace that a prefix stands for; an empty prefix without a binding is no namespace. -/
def resolve (scope : Scope) (pfx : String) (pos : Position) : Except Fault (Option String) :=
  match scope.uriOf? pfx with
  | some uri => .ok (some uri)
  | none => if pfx.isEmpty then .ok none else .error (.unknownPrefix pfx pos)

/-- The resolved name of an attribute. The default namespace does not apply to attributes, and the
prefix `xml` needs no declaration. -/
def attributeName (scope : Scope) (a : WrittenAttribute) : Except Fault ExpandedName :=
  if a.name.pfx = "xml" then .ok ⟨some xmlUri, a.name.localName⟩
  else if a.name.pfx.isEmpty then .ok ⟨none, a.name.localName⟩
  else do return ⟨← resolve scope a.name.pfx a.position, a.name.localName⟩

/-- Resolves attributes in order; no two of a tag, `earlier` ones included, may have one name. -/
def resolveAttributes (scope : Scope) (earlier : List Attribute) :
    List WrittenAttribute → Except Fault (List Attribute)
  | [] => .ok earlier
  | a :: rest => do
    let name ← attributeName scope a
    if earlier.any (·.name == name) then .error (.duplicateAttribute a.name.localName a.position)
    else resolveAttributes scope (earlier ++ [⟨name, a.value⟩]) rest

/-- The end of a start tag. The prefix of an element is looked up after its attributes. -/
def startTag (a : Assembly) (n : QName) (closed : Bool) (pos : Position) :
    Except Fault Assembly := do
  let scope := a.scope.extend a.declarations
  let attributes ← resolveAttributes scope [] a.attributes
  let uri ← resolve scope n.pfx (pos.next '<')
  let tag : StartTag := ⟨⟨uri, n.localName⟩, attributes, a.declarations, scope, pos⟩
  let a := { a with declarations := [], attributes := [] }
  return if closed then a.push (.element tag [])
    else { a with frames := ⟨n, tag, []⟩ :: a.frames }

/-- A close tag. Attributes that still wait have to resolve, though no element takes them. -/
def closeTag (a : Assembly) (n : QName) (pos : Position) : Except Fault Assembly := do
  let _ ← resolveAttributes (a.scope.extend a.declarations) [] a.attributes
  match a.frames with
  | [] => .error (.strayCloseTag pos)
  | f :: rest =>
    if f.name = n then
      let a : Assembly := ⟨[], [], rest, a.top⟩
      return a.push (.element f.tag f.content.reverse)
    else .error (.closeTagMismatch f.name.written n.written pos)

/-- Takes in one event. -/
def step (a : Assembly) : Event → Except Fault Assembly
  | .attr n value pos => a.attr n value pos
  | .startTag n closed pos => a.startTag n closed pos
  | .closeTag n pos => a.closeTag n pos
  | .text t => .ok (a.push (.text t))
  | .comment t => .ok (a.push (.comment t))
  | .instruction target t => .ok (a.push (.instruction target t))

/-- The assembly after a list of events, or the first fault among them. -/
def ofEvents (events : List Event) : Except Fault Assembly := events.foldlM step empty

end Assembly

end GroovyViews.Xml
