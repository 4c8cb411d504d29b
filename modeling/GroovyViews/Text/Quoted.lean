import GroovyViews.Text.Extender
import GroovyViews.Text.Unprintable

/-!
# Quoting texts and characters in diagnostics

A quoted text stands between double quotes with backslash escapes, a quoted character between single
quotes. A character that cannot be seen by itself is given by its code point in hexadecimal.
-/

namespace GroovyViews.Text

/-- A character that cannot be seen by itself: it is a control character, extends the one before
it, or stands for nothing that is printed. In ASCII only the controls are such. -/
def isInvisible (c : Char) : Bool :=
  if c.toNat < 0x7F then c.toNat < 0x20 else isExtender c || isUnprintable c

/-- A code point escape: `\u`, then the code in lower-case hexadecimal between braces. -/
def codePointEscape (c : Char) : List Char :=
  ['\\', 'u', '\x7b'] ++ Nat.toDigits 16 c.toNat ++ ['\x7d']

/-- How a character stands between the quotation marks `mark`: the mark itself, the backslash and
the invisible characters are escaped. -/
def escapeWithin (mark c : Char) : List Char :=
  if c = mark || c = '\\' then ['\\', c]
  else if c = '\n' then ['\\', 'n']
  else if c = '\r' then ['\\', 'r']
  else if c = '\t' then ['\\', 't']
  else if c.toNat = 0 then ['\\', '0']
  else if isInvisible c then codePointEscape c
  else [c]

/-- The text between double quotes. -/
def quoted (s : String) : String :=
  String.ofList ('"' :: s.toList.flatMap (escapeWithin '"') ++ ['"'])

/-- The character between single quotes. -/
def quotedChar (c : Char) : String :=
  String.ofList ('\x27' :: escapeWithin '\x27' c ++ ['\x27'])

end GroovyViews.Text
