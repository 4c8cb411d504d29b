import GroovyViews.Disk.Save
import GroovyViews.Draft

/-!
# The command line

Two paths and two flags. Arguments are read from left to right; the first that is wrong, or that
asks for help or the version, decides.
-/

namespace GroovyViews

/-- What the arguments ask for. -/
inductive Invocation where
  /-- Convert one file into another. -/
  | convert (input output : String) (options : Options)
  /-- Print the help text. -/
  | help
  /-- Print the version. -/
  | version
  /-- The arguments are wrong. -/
  | misuse
  deriving DecidableEq, Repr

/-- What the arguments so far have said. -/
structure Arguments where
  /-- The flag `--strict` was given. -/
  strict : Bool
  /-- The flag `--escape-strings` was given. -/
  escape : Bool
  /-- The paths given, in order. -/
  paths : List String
  deriving DecidableEq, Repr

namespace Arguments

/-- No arguments. -/
def empty : Arguments := ⟨false, false, []⟩

/-- The options that the flags stand for. -/
def options (a : Arguments) : Options := .ofFlags a.strict a.escape

/-- All arguments have been read; there have to be two paths. -/
def finish (a : Arguments) : Invocation :=
  match a.paths with
  | [input, output] => .convert input output a.options
  | _ => .misuse

/-- One more path. It may not be empty, and two are enough. -/
def addPath? (a : Arguments) (path : String) : Option Arguments :=
  if path.isEmpty || a.paths.length ≥ 2 then none else some { a with paths := a.paths ++ [path] }

/-- What a single argument says. -/
inductive Verdict where
  /-- More arguments may follow. -/
  | more (a : Arguments)
  /-- Only paths may follow. -/
  | pathsOnly
  /-- The argument decides. -/
  | decided (i : Invocation)

/-- Reads an argument that may be a flag. A lone hyphen is a path. -/
def readOne (a : Arguments) (arg : String) : Verdict :=
  if arg = "--" then .pathsOnly
  else if arg = "--strict" then
    if a.strict then .decided .misuse else .more { a with strict := true }
  else if arg = "--escape-strings" then
    if a.escape then .decided .misuse else .more { a with escape := true }
  else if arg = "--help" then .decided .help
  else if arg = "--version" then .decided .version
  else
    match arg.toList with
    | '-' :: 'h' :: _ => .decided .help
    | '-' :: 'V' :: _ => .decided .version
    | '-' :: _ :: _ => .decided .misuse
    | _ =>
      match a.addPath? arg with
      | some a => .more a
      | none => .decided .misuse

/-- Reads arguments all of which are paths. -/
def readPaths (a : Arguments) : List String → Invocation
  | [] => a.finish
  | arg :: rest =>
    match a.addPath? arg with
    | some a => a.readPaths rest
    | none => .misuse

/-- Reads arguments from left to right. -/
def readAll (a : Arguments) : List String → Invocation
  | [] => a.finish
  | arg :: rest =>
    match a.readOne arg with
    | .more a => a.readAll rest
    | .pathsOnly => a.readPaths rest
    | .decided i => i

end Arguments

/-- What the arguments ask for. -/
def Invocation.ofArguments (args : List String) : Invocation := Arguments.empty.readAll args

namespace CommandLine

/-- The version text. -/
def versionText : String := "jelly2groovy 0.1.0\n"

/-- The help text. -/
def helpText : String :=
  "Converts Jenkins Jelly views into Groovy views\n\n" ++
  "Usage: jelly2groovy [OPTIONS] <INPUTFILE> <OUTPUTFILE>\n\n" ++
  "Arguments:\n" ++
  "  <INPUTFILE>   The path to the Jelly file to convert\n" ++
  "  <OUTPUTFILE>  The path to the Groovy file to write to\n\n" ++
  "Options:\n" ++
  "      --strict          " ++
  "Fail on jelly:core tags that have no Groovy translation instead of skipping them\n" ++
  "      --escape-strings  " ++
  "Backslash-escape quotes, backslashes and `$` inside string literals\n" ++
  "  -h, --help            Print help\n" ++
  "  -V, --version         Print version\n"

/-- The part of the program that a notice is shown to come from. -/
def origin : Notice → String
  | .loaded _ _ => "jelly2groovy::pipeline::builder"
  | .converting _ _ | .wrote _ => "jelly2groovy::pipeline"
  | .defaultNamespaceOmitted _ | .visiting _ _ _ | .contentWithoutBlock _ _ | .tagSkipped _ _ =>
    "jelly2groovy::emitter"
  | .parsed _ | .siblingsIgnored _ _ _ => "jelly_view::document"
  | .declared _ | .collected _ _ => "jelly_view::namespace"

/-- The notices that a run shows are those of this level and above. -/
def shownLevel : Level := .info

/-- The conversion of a file, given what reading the file yields. -/
def conversion (input : String) (options : Options) (content : Except OsError (List UInt8)) :
    Traced Notice ConversionError Conversion := do
  let d ← Draft.empty.load input content
  .ofExcept ((d.withUnknownTags options.unknownTags).withEscaping options.escaping).build

/-- The line that reports a failure. -/
def failureText (e : ConversionError) : String := "Error: " ++ e.diagnostic

/-- How a run ended. -/
structure Report where
  /-- The exit status. -/
  exit : Nat
  /-- What was printed. -/
  output : String
  /-- The notices given. -/
  notices : List Notice
  /-- The reason for which the conversion failed, if it did. -/
  failure : Option ConversionError
  /-- The disk afterwards. -/
  disk : Disk

/-- A run of the program on a disk. The error of a failed run is dropped before the run ends. -/
def run (args : List String) (d : Disk) : Report :=
  match Invocation.ofArguments args with
  | .help => ⟨0, helpText, [], none, d⟩
  | .version => ⟨0, versionText, [], none, d⟩
  | .misuse => ⟨2, "", [], none, d⟩
  | .convert input output options =>
    let prepared := conversion input options (d.read ⟨input⟩)
    match prepared.outcome with
    | .error e => ⟨1, "", prepared.trace, some e, d⟩
    | .ok c =>
      let saved := c.saveTo output d
      let notices := prepared.trace ++ saved.result.trace
      match saved.result.outcome with
      | .error e => ⟨1, "", notices, some e, saved.drop⟩
      | .ok _ => ⟨0, "", notices, none, saved.disk⟩

end CommandLine

end GroovyViews
