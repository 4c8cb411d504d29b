import GroovyViews.View.Error
import GroovyViews.Xml.Name
import GroovyViews.Xml.Scope

/-!
# The prefixes of a whole view

A view uses each prefix for one namespace and each namespace with one prefix, wherever they are
declared. The table lists the declarations in the order in which they first occur and answers in
both directions.
-/

namespace GroovyViews

/-- The declarations of a view, in the order in which they first occur. -/
structure PrefixTable where
  /-- One entry for each prefix. -/
  entries : List Xml.Binding
  deriving DecidableEq, Repr

namespace PrefixTable

/-- No declarations. -/
def empty : PrefixTable := ⟨[]⟩

/-- The namespace declared for a prefix. -/
def uriOf? (t : PrefixTable) (pfx : String) : Option String :=
  (t.entries.find? fun b => b.pfx == pfx).map (·.uri)

/-- The prefix declared for a namespace. -/
def ownerOf? (t : PrefixTable) (uri : String) : Option String :=
  (t.entries.find? fun b => b.uri == uri).map (·.pfx)

/-- Adds a declaration. A repeated one changes nothing; a prefix with another namespace, or else a
namespace with another prefix, is refused. -/
def add (t : PrefixTable) (b : Xml.Binding) : Except ViewError PrefixTable :=
  match t.uriOf? b.pfx with
  | some existing =>
    if existing = b.uri then .ok t else .error (.prefixRebound b.pfx existing b.uri)
  | none =>
    match t.ownerOf? b.uri with
    | some existing => .error (.uriRebound b.uri existing b.pfx)
    | none => .ok ⟨t.entries ++ [b]⟩

/-- The braced form under which a namespace is looked up. A text that begins with a brace is taken
to be in that form already. -/
def key (uri : String) : String :=
  if uri.toList.head? = some '\x7b' then uri else Xml.braced uri

/-- The prefix of a namespace that is given bare or braced. -/
def prefixOf? (t : PrefixTable) (uri : String) : Option String :=
  (t.entries.find? fun b => Xml.braced b.uri == key uri).map (·.pfx)

/-- The prefix of a namespace; having none is an error. -/
def prefixOf (t : PrefixTable) (uri : String) : Except ViewError String :=
  match t.prefixOf? uri with
  | some pfx => .ok pfx
  | none => .error (.unresolvedNamespace uri)

end PrefixTable

end GroovyViews
