import GroovyViews.Options
import GroovyViews.Text

/-!
# Expressions of a Groovy view

An attribute value or a text of a view becomes an expression. A value of the form `${...}` is code
and stands as it is, one that begins with `${%` is the key of a localized message, and every other
one is a string literal without the white space around it.
-/

namespace GroovyViews.Groovy

/-- An expression. -/
inductive Expression where
  /-- The localized message with a key. -/
  | message (key : String)
  /-- Code, taken as it is. -/
  | code (text : String)
  /-- A string literal. -/
  | literal (text : String)
  deriving DecidableEq, Repr

namespace Expression

/-- The expression for a value of a view. The last character after `${%` is taken to be the closing
brace and is dropped, whatever it is. -/
def ofValue (value : String) : Expression :=
  match value.toList with
  | '$' :: '\x7b' :: '%' :: cs => message (String.ofList cs.dropLast)
  | '$' :: '\x7b' :: cs =>
    if cs.getLast? = some '\x7d' then code (String.ofList cs.dropLast)
    else literal (Text.trim value)
  | _ => literal (Text.trim value)

/-- The text of an expression. -/
def render (escaping : Escaping) : Expression → String
  | message key => "_(\"" ++ escaping.apply key ++ "\")"
  | code text => text
  | literal text => "\"" ++ escaping.apply text ++ "\""

end Expression

end GroovyViews.Groovy
