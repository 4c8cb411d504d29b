import GroovyViews.Groovy.Expression

/-!
# Statements of a Groovy view

The lines of a view: builder calls, conditions and their alternatives, and the naming of a method's
result. All but the last may open a block.
-/

namespace GroovyViews.Groovy

/-- The name of a named argument. -/
inductive Key where
  /-- A name without a prefix. -/
  | plain (name : String)
  /-- A name with a prefix, which has to be quoted. -/
  | qualified (pfx name : String)
  deriving DecidableEq, Repr

/-- An argument of a builder call. -/
inductive Argument where
  /-- An argument with a name. -/
  | named (key : Key) (value : Expression)
  /-- The text of the element. -/
  | positional (value : Expression)
  deriving DecidableEq, Repr

/-- A statement. -/
inductive Statement where
  /-- A call of a builder method; the qualifier may be empty. -/
  | call (qualifier tag : String) (arguments : List Argument)
  /-- A condition. -/
  | condition (test : Expression)
  /-- The alternative to the condition before it. -/
  | alternative
  /-- A variable that names the result of a static method. -/
  | definition (variableName className method : String)
  deriving DecidableEq, Repr

namespace Key

/-- The text of a key. -/
def render : Key → String
  | plain name => name
  | qualified pfx name => "\"" ++ pfx ++ ":" ++ name ++ "\""

end Key

namespace Argument

/-- The text of an argument. -/
def render (escaping : Escaping) : Argument → String
  | named key value => key.render ++ ": " ++ value.render escaping
  | positional value => value.render escaping

end Argument

namespace Statement

/-- The method of a call, with its qualifier if there is one. -/
def callee (qualifier tag : String) : String :=
  if qualifier.isEmpty then tag else qualifier ++ "." ++ tag

/-- The text of a statement without its block. -/
def head (escaping : Escaping) : Statement → String
  | call qualifier tag arguments =>
    callee qualifier tag ++ "(" ++
      String.intercalate ", " (arguments.map (Argument.render escaping)) ++ ")"
  | condition test => "if(" ++ test.render escaping ++ ")"
  | alternative => "else"
  | definition variableName className method =>
    "def " ++ variableName ++ " = " ++ className ++ "." ++ method

/-- A definition has no block; every other statement may have one. -/
def mayOpenBlock : Statement → Bool
  | definition _ _ _ => false
  | _ => true

/-- What follows the text on its line: the brace of a block, or the blank after a call without
one. -/
def lineEnd (s : Statement) (block : Bool) : String :=
  if block then " \x7b"
  else
    match s with
    | call _ _ _ => " "
    | _ => ""

/-- The line of a statement. -/
def line (escaping : Escaping) (block : Bool) (s : Statement) : String :=
  s.head escaping ++ s.lineEnd block

end Statement

end GroovyViews.Groovy
