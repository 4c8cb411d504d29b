import GroovyViews.Text

/-!
# Character classes of XML

Which characters a document may hold, which of them are spaces, and which make up names.
-/

namespace GroovyViews.Xml

/-- Space, tab, carriage return and line feed. -/
def isSpace (c : Char) : Bool := c = ' ' || c = '\t' || c = '\r' || c = '\n'

/-- The characters that a document may hold: no control character but the spaces, and no
noncharacter at the end of the basic plane. -/
def isXmlChar (c : Char) : Bool :=
  if c.toNat < 0x20 then isSpace c else c.toNat ≠ 0xFFFE && c.toNat ≠ 0xFFFF

/-- The ranges of characters with which a name may begin. -/
def nameStartRanges : List (Nat × Nat) :=
  [(0x41, 0x5A), (0x61, 0x7A), (0x3A, 0x3A), (0x5F, 0x5F), (0xC0, 0xD6), (0xD8, 0xF6),
    (0xF8, 0x2FF), (0x370, 0x37D), (0x37F, 0x1FFF), (0x200C, 0x200D), (0x2070, 0x218F),
    (0x2C00, 0x2FEF), (0x3001, 0xD7FF), (0xF900, 0xFDCF), (0xFDF0, 0xFFFD), (0x10000, 0xEFFFF)]

/-- The ranges of characters that may stand in a name but not begin it. -/
def nameExtraRanges : List (Nat × Nat) :=
  [(0x30, 0x39), (0x2D, 0x2D), (0x2E, 0x2E), (0xB7, 0xB7), (0x300, 0x36F), (0x203F, 0x2040)]

/-- A character with which a name may begin. -/
def isNameStart (c : Char) : Bool := Text.inRanges nameStartRanges c

/-- A character that may stand in a name. -/
def isNameChar (c : Char) : Bool := isNameStart c || Text.inRanges nameExtraRanges c

/-- The reserved namespace of the prefix `xml`. -/
def xmlUri : String := "http://www.w3.org/XML/1998/namespace"

/-- The reserved namespace of the prefix `xmlns`. -/
def xmlnsUri : String := "http://www.w3.org/2000/xmlns/"

end GroovyViews.Xml
