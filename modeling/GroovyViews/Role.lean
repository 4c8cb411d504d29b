import GroovyViews.PrefixTable

/-!
# What an element means in a view

Elements of the control namespace steer the view; every other element is a builder call, qualified
by the prefix of its namespace.
-/

namespace GroovyViews

/-- The namespace of the control tags. -/
def controlUri : String := "jelly:core"

/-- The control namespace, bare or braced. -/
def isControlUri (uri : String) : Bool := uri == controlUri || uri == Xml.braced controlUri

/-- The control tags. -/
inductive Control where
  /-- The tag `if`: its content is shown if a test holds. -/
  | ifTag
  /-- The tag `choose`: a group of alternatives. -/
  | choose
  /-- The tag `when`: an alternative with a test. -/
  | when
  /-- The tag `otherwise`: the alternative if no test holds. -/
  | otherwise
  /-- The tag `invokeStatic`: names the result of a static method. -/
  | invokeStatic
  /-- Any other tag of the control namespace. -/
  | other (name : String)
  deriving DecidableEq, Repr

namespace Control

/-- The control tag with a local name. -/
def ofLocalName (name : String) : Control :=
  match name with
  | "if" => ifTag
  | "choose" => choose
  | "when" => when
  | "otherwise" => otherwise
  | "invokeStatic" => invokeStatic
  | _ => other name

/-- The structured form for diagnostics. -/
def diagnostic : Control → String
  | ifTag => "If"
  | choose => "Choose"
  | when => "When"
  | otherwise => "Otherwise"
  | invokeStatic => "InvokeStatic"
  | other name => s!"Unknown({Text.quoted name})"

end Control

/-- The part that an element plays. -/
inductive Role where
  /-- It steers the view. -/
  | control (tag : Control)
  /-- It is a call of a builder method; the qualifier may be empty. -/
  | call (qualifier tag : String)
  deriving DecidableEq, Repr

namespace Role

/-- The role of an element with a resolved name. -/
def ofName (prefixes : PrefixTable) (name : Xml.ExpandedName) : Except ViewError Role :=
  match name.uri with
  | none => .ok (call "" name.localName)
  | some uri =>
    if isControlUri uri then .ok (control (Control.ofLocalName name.localName))
    else (prefixes.prefixOf uri).map fun pfx => call pfx name.localName

/-- The structured form for diagnostics. -/
def diagnostic : Role → String
  | control tag => s!"Control({tag.diagnostic})"
  | call qualifier tag =>
    ViewError.record "Generic" [("prefix", Text.quoted qualifier), ("tag", Text.quoted tag)]

end Role

end GroovyViews
