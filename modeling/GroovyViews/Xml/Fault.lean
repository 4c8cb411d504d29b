import GroovyViews.Text.Quoted
import GroovyViews.Xml.Position

/-!
# What can be wrong with a document

Each way in which a text fails to be a document is a constructor. `Fault.message` gives the sentence
shown to a user and `Fault.diagnostic` the structured form shown on a failed run.
-/

namespace GroovyViews.Xml

/-- The reasons for which a text is refused. -/
inductive Fault where
  /-- The prefix `xml` is bound to another namespace than its own. -/
  | wrongXmlUri (pos : Position)
  /-- The namespace of the prefix `xml` is bound to something else. -/
  | reservedXmlUri (pos : Position)
  /-- The namespace of the prefix `xmlns` is declared. -/
  | reservedXmlnsUri (pos : Position)
  /-- An element has the prefix `xmlns`. -/
  | xmlnsElement (pos : Position)
  /-- A prefix is declared twice on one element. -/
  | duplicateDeclaration (name : String) (pos : Position)
  /-- A prefix is used where it is not declared. -/
  | unknownPrefix (name : String) (pos : Position)
  /-- A close tag does not match the open element. -/
  | closeTagMismatch (expected actual : String) (pos : Position)
  /-- A close tag in an entity value has no start tag before it. -/
  | strayCloseTag (pos : Position)
  /-- A reference is not well-formed. -/
  | malformedReference (pos : Position)
  /-- A reference names an entity that is not declared. -/
  | unknownEntity (name : String) (pos : Position)
  /-- Entity values refer to each other too deeply or too often. -/
  | entityLoop (pos : Position)
  /-- An entity value brings an escaped less-than sign into an attribute. -/
  | lessThanInAttribute (pos : Position)
  /-- An attribute is given twice. -/
  | duplicateAttribute (name : String) (pos : Position)
  /-- There is no element at all. -/
  | noRoot
  /-- The text ends while an element is open. -/
  | unclosedRoot
  /-- A document declaration stands where a processing instruction is expected. -/
  | lateDeclaration (pos : Position)
  /-- A name does not begin with a name character or has two colons. -/
  | invalidName (pos : Position)
  /-- A character that no document may hold. -/
  | forbiddenChar (c : Char) (pos : Position)
  /-- Another byte than the one expected. -/
  | expectedByte (expected : Char) (found : UInt8) (pos : Position)
  /-- Another byte than one of the expected kind. -/
  | expectedKind (kind : String) (found : UInt8) (pos : Position)
  /-- Another text than the one expected. -/
  | expectedText (text : String) (pos : Position)
  /-- An external identifier is neither a system nor a public one. -/
  | invalidExternalId (pos : Position)
  /-- A comment has two hyphens in a row. -/
  | hyphensInComment (pos : Position)
  /-- The end mark of a character data section stands in plain text. -/
  | sectionEndInText (pos : Position)
  /-- Markup that is not known here. -/
  | unknownToken (pos : Position)
  /-- The text ends too early. -/
  | endOfText
  deriving DecidableEq, Repr

namespace Fault

/-- A byte shown as the character with that code. -/
def showByte (b : UInt8) : String := String.singleton (Char.ofNat b.toNat)

/-- The sentence for a user. -/
def message : Fault → String
  | wrongXmlUri p => s!"'xml' namespace prefix mapped to wrong URI at {p.short}"
  | reservedXmlUri p => s!"the 'xml' namespace URI is used for not 'xml' prefix at {p.short}"
  | reservedXmlnsUri p => s!"the 'xmlns' URI is used at {p.short}, but it must not be declared"
  | xmlnsElement p => s!"the 'xmlns' prefix is used at {p.short}, but it must not be"
  | duplicateDeclaration n p => s!"namespace '{n}' at {p.short} is already defined"
  | unknownPrefix n p => s!"an unknown namespace prefix '{n}' at {p.short}"
  | closeTagMismatch e a p => s!"expected '{e}' tag, not '{a}' at {p.short}"
  | strayCloseTag p => s!"unexpected close tag at {p.short}"
  | malformedReference p => s!"malformed entity reference at {p.short}"
  | unknownEntity n p => s!"unknown entity reference '{n}' at {p.short}"
  | entityLoop p => s!"a possible entity reference loop is detected at {p.short}"
  | lessThanInAttribute p => s!"unescaped '<' found at {p.short}"
  | duplicateAttribute n p => s!"attribute '{n}' at {p.short} is already defined"
  | noRoot => "the document does not have a root node"
  | unclosedRoot => "the root node was opened but never closed"
  | lateDeclaration p => s!"unexpected XML declaration at {p.short}"
  | invalidName p => s!"invalid name token at {p.short}"
  | forbiddenChar c p => s!"a non-XML character {Text.quotedChar c} found at {p.short}"
  | expectedByte e b p => s!"expected '{e}' not '{showByte b}' at {p.short}"
  | expectedKind k b p => s!"expected {k} not '{showByte b}' at {p.short}"
  | expectedText t p => s!"expected '{t}' at {p.short}"
  | invalidExternalId p => s!"invalid ExternalID at {p.short}"
  | hyphensInComment p => s!"comment at {p.short} contains '--'"
  | sectionEndInText p => s!"']]>' at {p.short} is not allowed inside a character data"
  | unknownToken p => s!"unknown token at {p.short}"
  | endOfText => "unexpected end of stream"

/-- A label with its fields between parentheses. -/
def labelled (label : String) (fields : List String) : String :=
  label ++ "(" ++ String.intercalate ", " fields ++ ")"

/-- A position as a field of a diagnostic. -/
def place (p : Position) : String := s!"TextPos \x7b row: {p.row}, col: {p.column} \x7d"

/-- The structured form for a failed run. -/
def diagnostic : Fault → String
  | wrongXmlUri p => labelled "InvalidXmlPrefixUri" [place p]
  | reservedXmlUri p => labelled "UnexpectedXmlUri" [place p]
  | reservedXmlnsUri p => labelled "UnexpectedXmlnsUri" [place p]
  | xmlnsElement p => labelled "InvalidElementNamePrefix" [place p]
  | duplicateDeclaration n p => labelled "DuplicatedNamespace" [Text.quoted n, place p]
  | unknownPrefix n p => labelled "UnknownNamespace" [Text.quoted n, place p]
  | closeTagMismatch e a p =>
    labelled "UnexpectedCloseTag" [Text.quoted e, Text.quoted a, place p]
  | strayCloseTag p => labelled "UnexpectedEntityCloseTag" [place p]
  | malformedReference p => labelled "MalformedEntityReference" [place p]
  | unknownEntity n p => labelled "UnknownEntityReference" [Text.quoted n, place p]
  | entityLoop p => labelled "EntityReferenceLoop" [place p]
  | lessThanInAttribute p => labelled "InvalidAttributeValue" [place p]
  | duplicateAttribute n p => labelled "DuplicatedAttribute" [Text.quoted n, place p]
  | noRoot => "NoRootNode"
  | unclosedRoot => "UnclosedRootNode"
  | lateDeclaration p => labelled "UnexpectedDeclaration" [place p]
  | invalidName p => labelled "InvalidName" [place p]
  | forbiddenChar c p => labelled "NonXmlChar" [Text.quotedChar c, place p]
  | expectedByte e b p => labelled "InvalidChar" [toString e.toNat, toString b.toNat, place p]
  | expectedKind k b p => labelled "InvalidChar2" [Text.quoted k, toString b.toNat, place p]
  | expectedText t p => labelled "InvalidString" [Text.quoted t, place p]
  | invalidExternalId p => labelled "InvalidExternalID" [place p]
  | hyphensInComment p => labelled "InvalidComment" [place p]
  | sectionEndInText p => labelled "InvalidCharacterData" [place p]
  | unknownToken p => labelled "UnknownToken" [place p]
  | endOfText => "UnexpectedEndOfStream"

end Fault

end GroovyViews.Xml
