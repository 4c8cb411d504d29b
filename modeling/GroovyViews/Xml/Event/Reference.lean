import GroovyViews.Xml.Event

/-!
# References and attribute values

A reference stands for a character or for the value of an entity. Entity values may refer to
further entities: at most ten deep, and with at most 255 references before the text is outside of
all of them again. `room` is the number of levels that may still be entered; it is ten outside of
any entity.
-/

namespace GroovyViews.Xml

/-- What a reference stands for. -/
inductive Reference where
  /-- A character, given by its code or by a predefined name. -/
  | char (c : Char)
  /-- The value of a declared entity. -/
  | entity (e : Entity)

/-- How deeply entity values may refer to each other. -/
def maxDepth : Nat := 10

/-- How many references may be met inside entity values in one go. -/
def maxReferences : Nat := 255

/-- The value of a hexadecimal or decimal digit. -/
def digitValue (c : Char) : Nat :=
  if '0' ≤ c ∧ c ≤ '9' then c.toNat - '0'.toNat
  else if 'a' ≤ c ∧ c ≤ 'f' then c.toNat - 'a'.toNat + 10
  else c.toNat - 'A'.toNat + 10

/-- A digit in base ten. -/
def isDecimal (c : Char) : Bool := '0' ≤ c && c ≤ '9'

/-- A digit in base sixteen. -/
def isHexadecimal (c : Char) : Bool :=
  isDecimal c || ('a' ≤ c && c ≤ 'f') || ('A' ≤ c && c ≤ 'F')

/-- The character with a written code of at most 32 bits. A code that is no character stands for the
replacement character; a character that no document may hold is refused. -/
def charOfCode (base : Nat) (digits : List Char) : Option Char :=
  let code := digits.foldl (fun n d => base * n + digitValue d) 0
  let c := if code.isValidChar then Char.ofNat code else '\uFFFD'
  if digits.isEmpty || code ≥ 0x100000000 || !isXmlChar c then none else some c

/-- The characters with predefined names. -/
def predefined : List (String × Char) :=
  [("quot", '"'), ("amp", '&'), ("apos", '\x27'), ("lt", '<'), ("gt", '>')]

namespace Reader

/-- What stands between the ampersand and the semicolon: the character with a code, or a name;
`none` if it is neither. -/
def referenceBody : Reader (Option (Char ⊕ String)) := do
  if ← begins "#x" then
    skip 2
    return (charOfCode 16 (← takeWhile isHexadecimal)).map .inl
  else if ← begins "#" then
    skip 1
    return (charOfCode 10 (← takeWhile isDecimal)).map .inl
  else
    let cs ← takeWhile isNameChar
    return if cs.head?.any isNameStart then some (.inr (String.ofList cs)) else none

/-- A reference at the cursor, which stands on its ampersand. -/
def reference : Reader Reference := do
  let start ← position
  skip 1
  let body ← referenceBody
  unless ← begins ";" do throw (.malformedReference start)
  skip 1
  match body with
  | none => throw (.malformedReference start)
  | some (.inl c) => return .char c
  | some (.inr n) =>
    match predefined.lookup n with
    | some c => return .char c
    | none =>
      match (← get).entities.find? (·.name == n) with
      | some e => return .entity e
      | none => throw (.unknownEntity n start)

/-- Reads the value of an entity with `body`. A reference inside another entity value is counted,
and the count starts anew once the text is outside of all entities. -/
def enter {α : Type} (room : Nat) (e : Entity) (body : Reader α) : Reader α := do
  if room < maxDepth then
    if (← get).references = maxReferences then failHere .entityLoop
    modify fun s => { s with references := s.references + 1 }
  let a ← within e.value body
  if room = maxDepth then modify fun s => { s with references := 0 }
  return a

/-- Tab, line feed and carriage return count as a space in an attribute. -/
def asSpace (c : Char) : Char := if isSpace c then ' ' else c

/-- Adds the normal form of an attribute value, the last character first, to `acc`. Inside an entity
value (`nested`) an escaped less-than sign is a fault and escaped spaces count as plain ones. -/
def attributeText (expand : Entity → List Char → Reader (List Char)) (nested : Bool) :
    List Char → Reader (List Char) :=
  iterate fun acc => do
    match ← rest with
    | [] => return .done acc
    | '&' :: _ =>
      let start ← position
      match ← reference with
      | .char c =>
        if nested && c = '<' then throw (.lessThanInAttribute start)
        return .again ((if nested then asSpace c else c) :: acc)
      | .entity e => return .again (← expand e acc)
    | '\r' :: '\n' :: _ =>
      skip 1
      return .again acc
    | c :: _ =>
      skip 1
      return .again (asSpace c :: acc)

/-- Adds the normal form of an attribute value with all entities expanded. -/
def attributeValue : Nat → List Char → Reader (List Char)
  | 0 => attributeText (fun _ _ => failHere .entityLoop) true
  | room + 1 =>
    attributeText (fun e acc => enter (room + 1) e (attributeValue room acc)) (room + 1 < maxDepth)

end Reader

end GroovyViews.Xml
