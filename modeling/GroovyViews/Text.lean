/-!
# Texts

Properties of characters are given by closed ranges of code points. Files and sinks hold bytes: a
text is written as its UTF-8 bytes and read back only if they are well-formed. White space is what
has the Unicode property `White_Space`.
-/

namespace GroovyViews.Text

/-- The code point of the character lies in one of the ranges. -/
def inRanges (ranges : List (Nat × Nat)) (c : Char) : Bool :=
  ranges.any fun r => r.1 ≤ c.toNat && c.toNat ≤ r.2

/-- The UTF-8 bytes of a text. -/
def bytes (s : String) : List UInt8 := s.toUTF8.data.toList

/-- The text that the bytes encode, if they are well-formed UTF-8. -/
def ofBytes? (bs : List UInt8) : Option String := String.fromUTF8? ⟨bs.toArray⟩

/-- The first of the UTF-8 bytes of a character. -/
def firstByte (c : Char) : UInt8 := (String.utf8EncodeChar c).headD 0

/-- The Unicode property `White_Space`. -/
def isBlank (c : Char) : Bool :=
  let n := c.toNat
  (0x9 ≤ n && n ≤ 0xD) || n == 0x20 || n == 0x85 || n == 0xA0 || n == 0x1680 ||
    (0x2000 ≤ n && n ≤ 0x200A) || n == 0x2028 || n == 0x2029 || n == 0x202F || n == 0x205F ||
    n == 0x3000

/-- The characters without the white space at both ends. -/
def trimChars (cs : List Char) : List Char :=
  ((cs.dropWhile isBlank).reverse.dropWhile isBlank).reverse

/-- The text without the white space at both ends. -/
def trim (s : String) : String := String.ofList (trimChars s.toList)

/-- A text with nothing but white space in it. -/
def allBlank (s : String) : Bool := s.toList.all isBlank

end GroovyViews.Text
