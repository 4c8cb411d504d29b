import GroovyViews.Conversion
import GroovyViews.Text

/-!
# Drafts of conversions

A draft collects what a conversion needs. Each setting replaces the one before it, and a source
keeps the path of its file with it.
-/

namespace GroovyViews

/-- A conversion in the making. -/
structure Draft where
  /-- The text of the view, once there is one. -/
  source : Option String
  /-- The file it was loaded from, if it was. -/
  path : Option String
  /-- The options so far. -/
  options : Options
  deriving DecidableEq, Repr

namespace Draft

/-- Nothing set. -/
def empty : Draft := ⟨none, none, .default⟩

/-- The text of a file, or why there is none, given what reading the file yields. -/
def loadedText (content : Except OsError (List UInt8)) : Except LoadError String :=
  match content with
  | .error e => .error (.system e)
  | .ok bytes =>
    match Text.ofBytes? bytes with
    | none => .error .notText
    | some text => .ok text

/-- Takes the view from a file, given what reading the file yields. -/
def load (d : Draft) (path : String) (content : Except OsError (List UInt8)) :
    Traced Notice ConversionError Draft :=
  match loadedText content with
  | .error reason => .fail (.io (.unreadable path reason))
  | .ok source => do
    .report (.loaded path (Text.bytes source).length)
    return { d with source := some source, path := some path }

/-- Takes the view from memory. -/
def withSource (d : Draft) (source : String) : Draft :=
  { d with source := some source, path := none }

/-- Sets what happens to tags that are not supported. -/
def withUnknownTags (d : Draft) (unknownTags : UnknownTags) : Draft :=
  { d with options := { d.options with unknownTags } }

/-- Sets how literals are written. -/
def withEscaping (d : Draft) (escaping : Escaping) : Draft :=
  { d with options := { d.options with escaping } }

/-- Sets all options. -/
def withOptions (d : Draft) (options : Options) : Draft := { d with options }

/-- The finished conversion; there has to be a source. -/
def build (d : Draft) : Except ConversionError Conversion :=
  match d.source with
  | some source => .ok ⟨source, d.path, d.options⟩
  | none => .error (.io .noSource)

end Draft

end GroovyViews
