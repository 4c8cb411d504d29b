import GroovyViews.Xml.Event.Prolog
import GroovyViews.Xml.Event.Reference

/-!
# Elements and the text between them

The content of an element is text, tags, comments, instructions and character data sections. A
reference to an entity in the text is replaced by the events of its value, read as content in its
turn. `Event.ofText` gives the events of a whole document.
-/

namespace GroovyViews.Xml

namespace Reader

/-- An attribute of a start tag. -/
def tagAttribute (room : Nat) : Reader Unit := do
  let pos ← position
  let n ← qname
  spaces
  expectChar '='
  spaces
  let mark ← quote
  let start ← position
  let cs ← takeUntil (atValueEnd mark)
  if ← atEnd then throw .endOfText
  if let .error fault := checkChars start cs then throw fault
  expectChar mark
  let value ← within ⟨cs, start⟩ (attributeValue room [])
  report (.attr n (String.ofList value.reverse) pos)

/-- A start tag; returns whether it opened an element that still has to be closed. If the text ends
right after the name or an attribute, the tag comes to nothing. -/
def startTag (room : Nat) : Reader Bool := do
  let start ← position
  skip 1
  let namePos ← position
  let n ← qname
  if n.pfx = "xmlns" then throw (.xmlnsElement namePos)
  iterate (fun _ => do
    if ← atEnd then return .done false
    let spaced := (← rest).head?.any isSpace
    spaces
    match ← rest with
    | [] => throw .endOfText
    | '/' :: _ =>
      skip 1
      expectChar '>'
      report (.startTag n true start)
      return .done false
    | '>' :: _ =>
      skip 1
      report (.startTag n false start)
      return .done true
    | c :: _ =>
      unless spaced do failHere (.expectedKind "a whitespace" (Text.firstByte c))
      tagAttribute room
      return .again ()) ()

/-- A close tag. In an entity value it may not come before the first start tag (`started`). -/
def closeTag (started : Bool) : Reader Unit := do
  let start ← position
  skip 2
  let n ← qname
  spaces
  expectChar '>'
  unless started do throw (.strayCloseTag start)
  report (.closeTag n start)

/-- The characters with each line end written as one line feed. -/
def lineFeeds : List Char → List Char
  | [] => []
  | '\r' :: '\n' :: cs => '\n' :: lineFeeds cs
  | '\r' :: cs => '\n' :: lineFeeds cs
  | c :: cs => c :: lineFeeds cs

/-- A section of character data. -/
def dataSection : Reader Unit := do
  skip 9
  let cs ← charsUntil (beginsWith "]]>")
  expectText "]]>"
  report (.text (String.ofList (lineFeeds cs)))

/-- Adds a plain character to a run of text, the last character first. A carriage return becomes a
line feed once the character after it is known, or at once if it is the `last` of the run; a line
feed after it is dropped. -/
def pushPlain (acc : List Char) (c : Char) (last : Bool) : List Char :=
  let c' := if last && c = '\r' then '\n' else c
  match acc with
  | '\r' :: acc => if c = '\n' then '\n' :: acc else c' :: '\n' :: acc
  | acc => c' :: acc

/-- Reports a run of text, given the last character first, if there is any. -/
def flush (acc : List Char) : Reader Unit := do
  unless acc.isEmpty do report (.text (String.ofList acc.reverse))

/-- A run of text. A character given by a reference outside of entities is kept as it is, and so
is the plain character after it (`verbatim`). -/
def textRun (expand : Entity → Reader Unit) (nested : Bool) : Reader Unit :=
  iterate (fun (acc, verbatim) => do
    match ← rest with
    | [] =>
      flush acc
      return .done ()
    | '&' :: _ =>
      match ← reference with
      | .char c =>
        if nested then return .again (pushPlain acc c (← atEnd), false)
        else return .again (c :: acc, true)
      | .entity e =>
        flush acc
        expand e
        return .again ([], false)
    | c :: _ =>
      skip 1
      if verbatim then return .again (c :: acc, false)
      else return .again (pushPlain acc c (← atEnd), false)) (([] : List Char), false)

/-- The text up to the next tag. -/
def text (expand : Entity → Reader Unit) (nested : Bool) : Reader Unit := do
  let start ← position
  let cs ← charsUntil (beginsWith "<")
  if occurs "]]>".toList cs then failHere .sectionEndInText
  within ⟨cs, start⟩ (textRun expand nested)

/-- Content up to the end of the piece or the close tag of the level it began on. `started` tells
whether a start tag has been met, which in an entity value has to come first. -/
def contentItems (expand : Entity → Reader Unit) (room : Nat) (started : Bool) : Reader Unit :=
  iterate (fun (level, started) => do
    match ← rest with
    | [] => return .done ()
    | '<' :: after =>
      if ← begins "<!--" then
        comment
        return .again (level, started)
      else if ← begins "<![CDATA[" then
        dataSection
        return .again (level, started)
      else if ← begins "<?" then
        instruction
        return .again (level, started)
      else if ← begins "</" then
        closeTag started
        return if level = 0 then .done () else .again (level - 1, started)
      else if after.isEmpty || (← begins "<!") then failHere .unknownToken
      else
        let opened ← startTag room
        return .again (if opened then level + 1 else level, true)
    | _ =>
      text expand (room < maxDepth)
      return .again (level, started)) (0, started)

/-- Content with all entities replaced by what their values contain. -/
def content : Nat → Bool → Reader Unit
  | 0 => contentItems (fun _ => failHere .entityLoop) 0
  | room + 1 => contentItems (fun e => enter (room + 1) e (content room false)) (room + 1)

/-- A whole document. -/
def document : Reader Unit := do
  if ← begins "\uFEFF" then skip 1
  if ← begins "<?xml " then declaration
  misc
  if ← begins "<!DOCTYPE" then
    doctype
    misc
  if ← begins "<" then
    if ← startTag maxDepth then content maxDepth true
  misc
  unless ← atEnd do failHere .unknownToken

end Reader

/-- The events of a document, up to the first fault in its text. -/
def Event.ofText (source : String) : Traced Event Fault Unit := do
  let _ ← Reader.document.run ⟨⟨source.toList, .start⟩, [], 0⟩

end GroovyViews.Xml
