import GroovyViews.Text.Quoted
import GroovyViews.Xml.Fault

/-!
# What can be wrong with a view

A view may be no document at all, bind its prefixes inconsistently, lack an attribute that a tag
needs, use a namespace without a prefix, or have nothing in it to convert.
-/

namespace GroovyViews

/-- The reasons for which a view cannot be read. -/
inductive ViewError where
  /-- The text is not a document. -/
  | malformed (fault : Xml.Fault)
  /-- A prefix is bound to a second namespace. -/
  | prefixRebound (pfx existing conflicting : String)
  /-- A namespace is bound to a second prefix. -/
  | uriRebound (uri existing conflicting : String)
  /-- A tag lacks an attribute. -/
  | missingAttribute (localName tag : String) (pos : Xml.Position)
  /-- A namespace has no prefix. -/
  | unresolvedNamespace (uri : String)
  /-- The wrapper around the view has no child element. -/
  | emptyWrapper (tag : String)
  deriving DecidableEq, Repr

namespace ViewError

/-- The sentence for a user. -/
def message : ViewError → String
  | malformed fault => s!"XML parsing error: {fault.message}"
  | prefixRebound p e c => s!"Duplicate prefix '{p}' with different URI: '{e}' and '{c}'"
  | uriRebound u e c => s!"Namespace '{u}' is bound to both '{e}' and '{c}'"
  | missingAttribute n t p => s!"Missing required attribute '{n}' on <{t}> at {p.describe}"
  | unresolvedNamespace u => s!"Namespace '{u}' was never declared"
  | emptyWrapper t => s!"Wrapper element <{t}> has no child element to convert"

/-- Named fields of a diagnostic between braces. -/
def record (label : String) (fields : List (String × String)) : String :=
  let shown := fields.map fun (name, value) => name ++ ": " ++ value
  label ++ " \x7b " ++ String.intercalate ", " shown ++ " \x7d"

/-- A position as a field of a diagnostic. -/
def place (p : Xml.Position) : String :=
  record "Location" [("line", toString p.row), ("col", toString p.column)]

/-- The structured form for a failed run. -/
def diagnostic : ViewError → String
  | malformed fault => s!"Xml({fault.diagnostic})"
  | prefixRebound p e c => record "DuplicatePrefix"
      [("prefix", Text.quoted p), ("existing", Text.quoted e), ("conflicting", Text.quoted c)]
  | uriRebound u e c => record "DuplicateNamespace"
      [("uri", Text.quoted u), ("existing", Text.quoted e), ("conflicting", Text.quoted c)]
  | missingAttribute n t p => record "MissingAttribute"
      [("attribute", Text.quoted n), ("tag", Text.quoted t), ("location", place p)]
  | unresolvedNamespace u => s!"UnresolvedNamespace({Text.quoted u})"
  | emptyWrapper t => s!"EmptyDocument({Text.quoted t})"

end ViewError

end GroovyViews
