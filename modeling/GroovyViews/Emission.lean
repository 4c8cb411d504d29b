import GroovyViews.Conversion.Error
import GroovyViews.Groovy.Statement
import GroovyViews.View

/-!
# Writing a Groovy view

A conversion is a list of steps: lines to write, notices to give and a final flush. It ends early
with the first error, and what comes before the error stands. Nothing here depends on where the
lines go; see the sinks for that.
-/

namespace GroovyViews

/-- A step of writing. -/
inductive Step where
  /-- Write a line with an indentation of two blanks a level. -/
  | line (indent : Nat) (text : String)
  /-- Give a notice. -/
  | notice (n : Notice)
  /-- Make sure that everything written arrives. -/
  | flush
  deriving DecidableEq, Repr

namespace Step

/-- The blanks in front of a line. -/
def indentation (indent : Nat) : String := String.ofList (List.replicate (2 * indent) ' ')

/-- What a step writes. -/
def text : Step → String
  | line indent text => indentation indent ++ text ++ "\n"
  | notice _ | flush => ""

/-- The notice that a step gives. -/
def notice? : Step → Option Notice
  | notice n => some n
  | line _ _ | flush => none

end Step

/-- Steps of writing that may end with an error. -/
abbrev Emission := Traced Step ConversionError

namespace Emission

/-- Writes a line. -/
def line (indent : Nat) (text : String) : Emission Unit := .report (.line indent text)

/-- Gives a notice. -/
def notice (n : Notice) : Emission Unit := .report (.notice n)

/-- A step of reading as a step of writing. -/
def ofReading {α : Type} (r : Reading α) : Emission α := r.adapt .notice .view

/-- The question to a view as a step of writing. -/
def ofView {α : Type} (answer : Except ViewError α) : Emission α :=
  .ofExcept (answer.mapError .view)

/-- All that is written if nothing limits it. -/
def text {α : Type} (e : Emission α) : String := String.join (e.trace.map Step.text)

/-- All notices that are given if nothing limits what is written. -/
def notices {α : Type} (e : Emission α) : List Notice := e.trace.filterMap Step.notice?

end Emission

/-- What the lines of a view depend on beside its elements. -/
structure Writer where
  /-- The prefixes by which calls and arguments are qualified. -/
  prefixes : PrefixTable
  /-- The options. -/
  options : Options

namespace Writer

/-- The line that binds a prefix in the preamble. -/
def preambleLine (b : Xml.Binding) : String := b.pfx ++ " = namespace(\"" ++ b.uri ++ "\")"

/-- The bindings of the prefixes, one a line. A default namespace has no prefix to bind. -/
def preamble (w : Writer) : Emission Unit := do
  .line 0 "// Namespaces"
  w.prefixes.entries.forM fun b =>
    if b.pfx.isEmpty then Emission.notice (.defaultNamespaceOmitted b.uri)
    else Emission.line 0 (preambleLine b)
  .line 0 ""
  .line 0 ""

/-- The key of an attribute. The prefix comes from the table or else from the element's own scope.
-/
def key (w : Writer) (e : Xml.Element) (name : Xml.ExpandedName) : Except ViewError Groovy.Key :=
  match name.uri with
  | none => .ok (.plain name.localName)
  | some uri =>
    match (w.prefixes.prefixOf? uri).orElse fun _ => e.prefixOf? uri with
    | some pfx => .ok (.qualified pfx name.localName)
    | none => .error (.unresolvedNamespace uri)

/-- The arguments of a call: the attributes in written order and then the text. -/
def arguments (w : Writer) (e : Xml.Element) : Except ViewError (List Groovy.Argument) := do
  let named ← e.tag.attributes.mapM fun a =>
    return Groovy.Argument.named (← w.key e a.name) (.ofValue a.value)
  return named ++ (e.text?.map fun t => Groovy.Argument.positional (.ofValue t)).toList

/-- The statement of a control tag, if it has one. -/
def controlStatement (w : Writer) (e : Xml.Element) : Control → Emission (Option Groovy.Statement)
  | .ifTag | .when => do
    return some (.condition (.ofValue (← Emission.ofView (e.required "test"))))
  | .otherwise => return some .alternative
  | .choose => return none
  | .invokeStatic => do
    let variableName ← Emission.ofView (e.required "var")
    let className ← Emission.ofView (e.required "className")
    let method ← Emission.ofView (e.required "method")
    if e.hasChildren then Emission.notice (.contentWithoutBlock e.shownName e.position)
    return some (.definition variableName className method)
  | .other name =>
    match w.options.unknownTags with
    | .skip => do
      Emission.notice (.tagSkipped e.shownName e.position)
      return none
    | .reject => .fail (.unsupportedTag name e.position)

/-- The statement of an element, if it has one. -/
def statement (w : Writer) (e : Xml.Element) : Role → Emission (Option Groovy.Statement)
  | .control tag => w.controlStatement e tag
  | .call qualifier tag => do
    return some (.call qualifier tag (← Emission.ofView (w.arguments e)))

/-- Writes the line of an element and returns whether it opened a block. -/
def opening (w : Writer) (indent : Nat) (e : Xml.Element) : Emission Bool := do
  let role ← Emission.ofView (Role.ofName w.prefixes e.name)
  Emission.notice (.visiting indent e.name role)
  match ← w.statement e role with
  | none => return false
  | some s =>
    let block := s.mayOpenBlock && e.hasChildren
    Emission.line indent (s.line w.options.escaping block)
    return block

mutual

/-- Writes a node with all that is in it, which is nothing unless it is an element. Content is
indented by one more level even if its element writes no line. -/
def node (w : Writer) (indent : Nat) : Xml.Node → Emission Unit
  | .element tag content => do
    let block ← w.opening indent ⟨tag, content⟩
    w.nodes (indent + 1) content
    if block then Emission.line indent "\x7d"
  | .text _ | .comment _ | .instruction _ _ => return

/-- Writes several nodes. -/
def nodes (w : Writer) (indent : Nat) : List Xml.Node → Emission Unit
  | [] => return
  | n :: rest => do
    w.node indent n
    w.nodes indent rest

end

/-- Writes an element with all that is in it. Levels have no bound here. Every level in use is
`indent` and the depth of an element together, so where a level is a machine word of 64 bits the
lines are the same as long as the blanks of the deepest one can be counted, that is, for each depth
`2 * (indent + depth)` is below `2 ^ 63`. -/
def element (w : Writer) (indent : Nat) (e : Xml.Element) : Emission Unit := w.node indent e.node

end Writer

end GroovyViews
