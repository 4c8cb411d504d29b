/-!
# Options of a conversion

What happens to control tags that are not supported, and whether string literals are escaped.
-/

namespace GroovyViews

/-- What happens to a control tag that is not supported. -/
inductive UnknownTags where
  /-- It is left out, with a notice; its content is kept. -/
  | skip
  /-- It is an error. -/
  | reject
  deriving DecidableEq, Repr

/-- How a text is written between double quotes. -/
inductive Escaping where
  /-- As it is. -/
  | verbatim
  /-- With a backslash before each backslash, double quote and dollar sign. -/
  | backslash
  deriving DecidableEq, Repr

namespace Escaping

/-- The characters that have a meaning between double quotes. -/
def isSpecial (c : Char) : Bool := c = '\\' || c = '"' || c = '$'

/-- The characters of a text as they stand between double quotes. -/
def chars : Escaping → List Char → List Char
  | verbatim, cs => cs
  | backslash, cs => cs.flatMap fun c => if isSpecial c then ['\\', c] else [c]

/-- A text as it stands between double quotes. -/
def apply (e : Escaping) (s : String) : String := String.ofList (e.chars s.toList)

end Escaping

/-- The options of a conversion. -/
structure Options where
  /-- What happens to control tags that are not supported. -/
  unknownTags : UnknownTags
  /-- How string literals are written. -/
  escaping : Escaping
  deriving DecidableEq, Repr

namespace Options

/-- Tags that are not supported are skipped, and literals are left as they are. -/
def default : Options := ⟨.skip, .verbatim⟩

/-- The options that two flags stand for: whether such tags are rejected and whether literals are
escaped. -/
def ofFlags (strict escape : Bool) : Options :=
  ⟨if strict then .reject else .skip, if escape then .backslash else .verbatim⟩

end Options

end GroovyViews
