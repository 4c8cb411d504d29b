import GroovyViews.Xml.Char

/-!
# Namespace bindings in scope

A start tag may bind prefixes to namespaces for its element and everything in it. A binding of the
empty prefix sets the default namespace.
-/

namespace GroovyViews.Xml

/-- A prefix bound to a namespace; the empty prefix is the default one. -/
structure Binding where
  /-- The prefix, empty for the default namespace. -/
  pfx : String
  /-- The namespace. -/
  uri : String
  deriving DecidableEq, Repr

/-- The bindings that hold at an element: its own in written order, then those from outside. -/
abbrev Scope := List Binding

namespace Scope

/-- The scope of an element with bindings of its own: they come first and hide the outer bindings of
the same prefixes. -/
def extend (outer : Scope) (own : List Binding) : Scope :=
  own ++ outer.filter fun b => own.all fun o => o.pfx ≠ b.pfx

/-- The namespace bound to a prefix. -/
def uriOf? (scope : Scope) (pfx : String) : Option String :=
  (scope.find? fun b => b.pfx == pfx).map Binding.uri

/-- The prefix of the first binding to a namespace. It is always `xml` for the reserved namespace,
and none if that first binding is the default one. -/
def prefixOf? (scope : Scope) (uri : String) : Option String :=
  if uri = xmlUri then some "xml"
  else
    match scope.find? fun b => b.uri == uri with
    | some b => if b.pfx.isEmpty then none else some b.pfx
    | none => none

end Scope

end GroovyViews.Xml
