/-!
# Names with and without a resolved namespace

A document writes a name with an optional prefix. Resolving the prefix gives the expanded name: a
namespace, if there is one, and a local name.
-/

namespace GroovyViews.Xml

/-- A name as it is written. An empty prefix stands for none. -/
structure QName where
  /-- The part before the colon, or nothing. -/
  pfx : String
  /-- The part after the colon. -/
  localName : String
  deriving DecidableEq, Repr

namespace QName

/-- The written form: the two parts with a colon, or the local part alone. -/
def written (n : QName) : String :=
  if n.pfx.isEmpty then n.localName else s!"{n.pfx}:{n.localName}"

end QName

/-- A name with its namespace. -/
structure ExpandedName where
  /-- The namespace, if the name is in one. -/
  uri : Option String
  /-- The name within the namespace. -/
  localName : String
  deriving DecidableEq, Repr

/-- A namespace between braces, the form in which names show it. -/
def braced (uri : String) : String := "\x7b" ++ uri ++ "\x7d"

namespace ExpandedName

/-- The local name with the braced namespace in front of it, if there is one. -/
def display (n : ExpandedName) : String :=
  match n.uri with
  | some uri => braced uri ++ n.localName
  | none => n.localName

end ExpandedName

end GroovyViews.Xml
