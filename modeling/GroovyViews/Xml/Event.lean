import GroovyViews.Text
import GroovyViews.Traced
import GroovyViews.Xml.Char
import GroovyViews.Xml.Fault
import GroovyViews.Xml.Name
import GroovyViews.Xml.Position

/-!
# Events and their readers

Reading a document from left to right yields a list of events. Attributes come before the start tag
they stand in, because each is reported as soon as it is complete. References are already replaced:
an entity that holds markup contributes the events of its value.

A reader holds a cursor, the entities declared so far and a count of nested references. It reports
events and stops at the first fault. Every loop of the grammar is an `iterate`, which makes at most
one round for each character left and one more, so all readers are total.
-/

namespace GroovyViews.Xml

/-- One piece of a document. -/
inductive Event where
  /-- An attribute, with its value in normal form and the position of its name. -/
  | attr (name : QName) (value : String) (pos : Position)
  /-- The end of a start tag whose `<` is at `pos`; `closed` if the element ends with it. -/
  | startTag (name : QName) (closed : Bool) (pos : Position)
  /-- A close tag whose `<` is at `pos`. -/
  | closeTag (name : QName) (pos : Position)
  /-- Character data. -/
  | text (content : String)
  /-- A comment. -/
  | comment (content : String)
  /-- A processing instruction. -/
  | instruction (target : String) (content : String)
  deriving DecidableEq, Repr

/-- A piece of the text that is still to be read, and where it begins. -/
structure Cursor where
  /-- The characters left. -/
  rest : List Char
  /-- The position of the first of them. -/
  position : Position
  deriving Repr

/-- The cursor after `n` more characters. -/
def Cursor.skip (c : Cursor) (n : Nat) : Cursor :=
  ⟨c.rest.drop n, c.position.advance (c.rest.take n)⟩

/-- A declared entity. Its value is a piece of the document, so positions in it are true ones. -/
structure Entity where
  /-- The name by which it is referred to. -/
  name : String
  /-- The value, as written. -/
  value : Cursor
  deriving Repr

/-- What a reader knows. -/
structure ReaderState where
  /-- The piece being read. -/
  cursor : Cursor
  /-- The declared entities, the earliest first. -/
  entities : List Entity
  /-- The references met inside entity values since the text was last outside of any. -/
  references : Nat

/-- A step of the grammar: it moves the cursor, reports events, and may find a fault. -/
abbrev Reader := StateT ReaderState (Traced Event Fault)

/-- Whether a loop goes on. -/
inductive Turn (σ β : Type) where
  /-- Another round with this state. -/
  | again (next : σ)
  /-- The loop ends with this result. -/
  | done (result : β)

/-- The characters before the first place where `stop` holds of what is left. -/
def before (stop : List Char → Bool) : List Char → List Char
  | [] => []
  | c :: cs => if stop (c :: cs) then [] else c :: before stop cs

/-- Whether `needle` occurs in the characters. -/
def occurs (needle : List Char) : List Char → Bool
  | [] => needle.isEmpty
  | c :: cs => needle.isPrefixOf (c :: cs) || occurs needle cs

/-- The characters begin with `text`. -/
def beginsWith (text : String) (cs : List Char) : Bool := text.toList.isPrefixOf cs

/-- Every character is one that a document may hold; the first that is not is a fault. -/
def checkChars (p : Position) : List Char → Except Fault Unit
  | [] => .ok ()
  | c :: cs => if isXmlChar c then checkChars (p.next c) cs else .error (.forbiddenChar c p)

namespace Reader

variable {α β σ : Type}

/-- The piece being read. -/
def cursor : Reader Cursor := return (← get).cursor

/-- The characters left. -/
def rest : Reader (List Char) := return (← cursor).rest

/-- Where the cursor stands. -/
def position : Reader Position := return (← cursor).position

/-- Nothing is left. -/
def atEnd : Reader Bool := return (← rest).isEmpty

/-- The characters left begin with `text`. -/
def begins (text : String) : Reader Bool := return beginsWith text (← rest)

/-- Passes over `n` characters. -/
def skip (n : Nat) : Reader Unit := modify fun s => { s with cursor := s.cursor.skip n }

/-- Passes over characters and returns them. -/
def take (cs : List Char) : Reader (List Char) := do
  skip cs.length
  return cs

/-- Reports an event. -/
def report (e : Event) : Reader Unit := StateT.lift (Traced.report e)

/-- Stops with a fault at the cursor. -/
def failHere (fault : Position → Fault) : Reader α := do throw (fault (← position))

/-- The longest run of characters of a class. -/
def takeWhile (p : Char → Bool) : Reader (List Char) := do take ((← rest).takeWhile p)

/-- The characters before the place where `stop` holds, or all of them. -/
def takeUntil (stop : List Char → Bool) : Reader (List Char) := do take (before stop (← rest))

/-- The characters before the place where `stop` holds, all of which a document may hold. -/
def charsUntil (stop : List Char → Bool) : Reader (List Char) := do
  let start ← position
  let cs ← takeUntil stop
  match checkChars start cs with
  | .ok _ => return cs
  | .error fault => throw fault

/-- Passes over spaces, if there are any. -/
def spaces : Reader Unit := do let _ ← takeWhile isSpace

/-- The next character is `c`. -/
def expectChar (c : Char) : Reader Unit := do
  match ← rest with
  | [] => throw .endOfText
  | d :: _ => if d = c then skip 1 else failHere (.expectedByte c (Text.firstByte d))

/-- The text goes on with `text`. -/
def expectText (text : String) : Reader Unit := do
  if ← begins text then skip text.length else failHere (.expectedText text)

/-- At least one space. -/
def needSpaces : Reader Unit := do
  match ← rest with
  | [] => throw .endOfText
  | c :: _ =>
    if isSpace c then spaces else failHere (.expectedKind "a whitespace" (Text.firstByte c))

/-- A single or double quotation mark. -/
def quote : Reader Char := do
  match ← rest with
  | [] => throw .endOfText
  | c :: _ =>
    if c = '"' || c = '\x27' then
      skip 1
      return c
    else failHere (.expectedKind "a quote" (Text.firstByte c))

/-- Passes over a name, or over nothing at the end of the text. -/
def skipName : Reader (List Char) := do
  match ← rest with
  | [] => return []
  | c :: _ => if isNameStart c then takeWhile isNameChar else failHere .invalidName

/-- A name without regard to prefixes. -/
def name : Reader String := do
  let start ← position
  match ← skipName with
  | [] => throw (.invalidName start)
  | cs => return String.ofList cs

/-- The two parts of a name, if there is at most one colon, the local part begins like a name and so
does the prefix, which may be missing. -/
def splitName (cs : List Char) : Option QName :=
  let (pfx, localName) :=
    match cs.dropWhile (· != ':') with
    | [] => ([], cs)
    | _ :: after => (cs.takeWhile (· != ':'), after)
  if !localName.contains ':' && localName.head?.any isNameStart && pfx.head?.all isNameStart then
    some ⟨String.ofList pfx, String.ofList localName⟩
  else none

/-- A name with an optional prefix. -/
def qname : Reader QName := do
  let start ← position
  match splitName (← takeWhile isNameChar) with
  | some n => return n
  | none => throw (.invalidName start)

/-- At most `n` rounds of a loop. Running out of rounds is the end of the text. -/
def rounds (step : σ → Reader (Turn σ β)) : Nat → σ → Reader β
  | 0, _ => throw .endOfText
  | n + 1, s => do
    match ← step s with
    | .again s => rounds step n s
    | .done b => return b

/-- Repeats `step` until it is done. Each round that goes on takes at least one character, so the
characters left bound the rounds. -/
def iterate (step : σ → Reader (Turn σ β)) (init : σ) : Reader β := do
  rounds step ((← rest).length + 1) init

/-- Reads another piece of the text and comes back. -/
def within (piece : Cursor) (body : Reader α) : Reader α := do
  let outer ← cursor
  modify fun s => { s with cursor := piece }
  let a ← body
  modify fun s => { s with cursor := outer }
  return a

end Reader

end GroovyViews.Xml
