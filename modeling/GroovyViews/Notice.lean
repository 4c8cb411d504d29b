import GroovyViews.Role

/-!
# Notices

What reading and converting a view tells its user beside the result. A notice has a level; a user
sees those of a chosen level and above.
-/

namespace GroovyViews

/-- How important a notice is, the most important first. -/
inductive Level where
  /-- Something failed. -/
  | error
  /-- Something is left out of the result. -/
  | warn
  /-- A file was read or written. -/
  | info
  /-- A stage of the work is done. -/
  | debug
  /-- A single step of the work. -/
  | trace
  deriving DecidableEq, Repr

namespace Level

/-- The place in the order of importance. -/
def rank : Level → Nat
  | error => 0
  | warn => 1
  | info => 2
  | debug => 3
  | trace => 4

/-- The name in capital letters. -/
def label : Level → String
  | error => "ERROR"
  | warn => "WARN"
  | info => "INFO"
  | debug => "DEBUG"
  | trace => "TRACE"

end Level

/-- The notices of a conversion. -/
inductive Notice where
  /-- A prefix was declared for the first time. -/
  | declared (binding : Xml.Binding)
  /-- All declarations have been collected. -/
  | collected (count : Nat) (root : String)
  /-- A view has been read. -/
  | parsed (root : String)
  /-- A wrapper has more child elements than the one that is converted. -/
  | siblingsIgnored (wrapper : String) (count : Nat) (first : String)
  /-- A file has been read. -/
  | loaded (path : String) (size : Nat)
  /-- The conversion of a file begins. -/
  | converting (path : String) (start : String)
  /-- A default namespace has no prefix to stand in the preamble. -/
  | defaultNamespaceOmitted (uri : String)
  /-- An element is about to be written. -/
  | visiting (indent : Nat) (name : Xml.ExpandedName) (role : Role)
  /-- A static call has content, which has no block to go in. -/
  | contentWithoutBlock (tag : String) (pos : Xml.Position)
  /-- A control tag is not supported and is left out. -/
  | tagSkipped (tag : String) (pos : Xml.Position)
  /-- A file has been written. -/
  | wrote (path : String)
  deriving DecidableEq, Repr

namespace Notice

/-- The level of a notice. -/
def level : Notice → Level
  | declared _ | visiting _ _ _ => .trace
  | collected _ _ | parsed _ | converting _ _ => .debug
  | loaded _ _ | wrote _ => .info
  | siblingsIgnored _ _ _ | defaultNamespaceOmitted _ | contentWithoutBlock _ _ | tagSkipped _ _ =>
    .warn

/-- The text of a notice. -/
def message : Notice → String
  | declared b => s!"xmlns:{b.pfx} -> {Xml.braced b.uri}"
  | collected count root =>
    s!"Collected {count} namespace declaration(s), root element Some({Text.quoted root})"
  | parsed root => s!"Parsed document with root <{root}>"
  | siblingsIgnored wrapper count first =>
    s!"<{wrapper}> has {count} more child element(s) after <{first}>; only the first is converted"
  | loaded path size => s!"Loaded {path} ({size} bytes)"
  | converting path start => s!"Converting {path} starting at <{start}>"
  | defaultNamespaceOmitted uri =>
    s!"Default namespace '{uri}' has no prefix and is left out of the preamble"
  | visiting indent name role =>
    String.ofList (List.replicate (2 * indent) ' ') ++ s!"{name.display} as {role.diagnostic}"
  | contentWithoutBlock tag pos => s!"Children of <{tag}> at {pos.describe} have no block to go in"
  | tagSkipped tag pos => s!"Skipping unsupported control tag <{tag}> at {pos.describe}"
  | wrote path => s!"Wrote {path}"

/-- A notice is seen by a user who asked for `least` and above. -/
def isSeen (least : Level) (n : Notice) : Bool := n.level.rank ≤ least.rank

end Notice

end GroovyViews
