import GroovyViews.Xml.Event

/-!
# What comes before the root element

The document declaration, comments and processing instructions, and the document type with its
entity declarations. Of the document type only entities with a value matter; everything else in it
is passed over.
-/

namespace GroovyViews.Xml

namespace Reader

/-- A comment. Two hyphens in a row, or one at its end, are a fault. -/
def comment : Reader Unit := do
  let start ← position
  skip 4
  let cs ← charsUntil (beginsWith "-->")
  expectText "-->"
  if occurs "--".toList cs || cs.getLast? = some '-' then throw (.hyphensInComment start)
  report (.comment (String.ofList cs))

/-- A processing instruction. -/
def instruction : Reader Unit := do
  if ← begins "<?xml " then failHere .lateDeclaration
  skip 2
  let target ← name
  spaces
  let cs ← charsUntil (beginsWith "?>")
  expectText "?>"
  report (.instruction target (String.ofList cs))

/-- Spaces, comments and processing instructions. -/
def misc : Reader Unit :=
  iterate (fun _ => do
    spaces
    if ← begins "<!--" then
      comment
      return .again ()
    else if ← begins "<?" then
      instruction
      return .again ()
    else return .done ()) ()

/-- The place where a quoted value ends: its mark or a less-than sign. -/
def atValueEnd (mark : Char) (cs : List Char) : Bool :=
  cs.head?.any fun c => c = mark || c = '<'

/-- A name and a quoted value in the document declaration. Neither is used. -/
def declarationItem : Reader Unit := do
  let _ ← qname
  spaces
  expectChar '='
  spaces
  let mark ← quote
  let _ ← charsUntil (atValueEnd mark)
  expectChar mark

/-- Spaces between the items of the declaration; none are needed at its end. -/
def declarationSpaces : Reader Unit := do
  match ← rest with
  | [] => return
  | c :: _ =>
    if isSpace c then spaces
    else unless ← begins "?>" do failHere (.expectedKind "a whitespace" (Text.firstByte c))

/-- The document declaration. -/
def declaration : Reader Unit := do
  skip 5
  declarationSpaces
  unless ← begins "version" do failHere (.expectedText "version")
  declarationItem
  declarationSpaces
  if ← begins "encoding" then
    declarationItem
    declarationSpaces
  if ← begins "standalone" then declarationItem
  spaces
  expectText "?>"

/-- A quoted value whose characters are not looked at. -/
def literal : Reader Cursor := do
  let mark ← quote
  let start ← position
  let cs ← takeUntil fun cs => cs.head? = some mark
  expectChar mark
  return ⟨cs, start⟩

/-- An external identifier, if there is one: a system literal, or a public and a system literal. -/
def externalId : Reader Bool := do
  if ← begins "SYSTEM" then
    skip 6
    needSpaces
    let _ ← literal
    return true
  else if ← begins "PUBLIC" then
    skip 6
    needSpaces
    let _ ← literal
    needSpaces
    let _ ← literal
    return true
  else return false

/-- The definition of an entity: its value, or `none` if it lies outside of the document. Only a
`general` entity may be followed by a notation. -/
def entityDefinition (general : Bool) : Reader (Option Cursor) := do
  match ← rest with
  | [] => throw .endOfText
  | c :: _ =>
    if c = '"' || c = '\x27' then return some (← literal)
    else if c = 'S' || c = 'P' then
      unless ← externalId do failHere .invalidExternalId
      if general then
        spaces
        if ← begins "NDATA" then
          skip 5
          needSpaces
          let _ ← skipName
      return none
    else failHere (.expectedKind "a quote, SYSTEM or PUBLIC" (Text.firstByte c))

/-- The declaration of an entity. -/
def entityDeclaration : Reader Unit := do
  skip 8
  needSpaces
  let general := !(← begins "%")
  unless general do
    skip 1
    needSpaces
  let n ← name
  needSpaces
  if let some value ← entityDefinition general then
    modify fun s => { s with entities := s.entities ++ [⟨n, value⟩] }
  spaces
  expectChar '>'

/-- The closing bracket of the internal subset and the end of the document type. -/
def subsetEnd : Reader Unit := do
  skip 1
  spaces
  match ← rest with
  | [] => throw .endOfText
  | c :: _ => if c = '>' then skip 1 else failHere (.expectedKind "'>'" (Text.firstByte c))

/-- The declarations between the brackets of a document type that began at `start`. -/
def internalSubset (start : Position) : Reader Unit :=
  iterate (fun _ => do
    if ← atEnd then return .done ()
    spaces
    if ← begins "<!ENTITY" then
      entityDeclaration
      return .again ()
    else if ← begins "<!--" then
      comment
      return .again ()
    else if ← begins "<?" then
      instruction
      return .again ()
    else if ← begins "]" then
      subsetEnd
      return .done ()
    else if (← begins "<!ELEMENT") || (← begins "<!ATTLIST") || (← begins "<!NOTATION") then
      let _ ← takeUntil (beginsWith ">")
      if ← atEnd then throw (.unknownToken start)
      skip 1
      return .again ()
    else failHere .unknownToken) ()

/-- The document type. -/
def doctype : Reader Unit := do
  let start ← position
  skip 9
  needSpaces
  let _ ← skipName
  spaces
  let _ ← externalId
  spaces
  match ← rest with
  | [] => throw .endOfText
  | '>' :: _ => skip 1
  | '[' :: _ =>
    skip 1
    internalSubset start
  | c :: _ => failHere (.expectedKind "'[' or '>'" (Text.firstByte c))

end Reader

end GroovyViews.Xml
