import GroovyViews.View.Error

/-!
# What can go wrong in a conversion

The view may be wrong, hold a tag that is not supported, or the input and output may fail.
-/

namespace GroovyViews

/-- Errors of the operating system. -/
inductive OsError where
  /-- Nobody but the owner may do this. -/
  | notPermitted
  /-- There is nothing with that name. -/
  | notFound
  /-- The user may not do this. -/
  | permissionDenied
  /-- The name is in use by the system. -/
  | busy
  /-- A file stands where a directory is needed. -/
  | notADirectory
  /-- A directory stands where a file is needed. -/
  | isADirectory
  /-- An argument makes no sense to the system. -/
  | invalidArgument
  /-- A name or a path is too long. -/
  | nameTooLong
  /-- A path holds the character that ends a text. -/
  | nulInName
  deriving DecidableEq, Repr

namespace OsError

/-- The system's number for the error, if it has one. -/
def number? : OsError → Option Nat
  | notPermitted => some 1
  | notFound => some 2
  | permissionDenied => some 13
  | busy => some 16
  | notADirectory => some 20
  | isADirectory => some 21
  | invalidArgument => some 22
  | nameTooLong => some 36
  | nulInName => none

/-- The error in words. -/
def description : OsError → String
  | notPermitted => "Operation not permitted"
  | notFound => "No such file or directory"
  | permissionDenied => "Permission denied"
  | busy => "Device or resource busy"
  | notADirectory => "Not a directory"
  | isADirectory => "Is a directory"
  | invalidArgument => "Invalid argument"
  | nameTooLong => "File name too long"
  | nulInName => "file name contained an unexpected NUL byte"

/-- The message, with the system's number for it if it has one. -/
def message (e : OsError) : String :=
  match e.number? with
  | some n => s!"{e.description} (os error {n})"
  | none => e.description

/-- The kind of error, for diagnostics. -/
def label : OsError → String
  | notFound => "NotFound"
  | notPermitted | permissionDenied => "PermissionDenied"
  | busy => "ResourceBusy"
  | notADirectory => "NotADirectory"
  | isADirectory => "IsADirectory"
  | invalidArgument | nulInName => "InvalidInput"
  | nameTooLong => "InvalidFilename"

/-- The structured form for a failed run. -/
def diagnostic (e : OsError) : String :=
  let cause := [("kind", e.label), ("message", Text.quoted e.description)]
  match e.number? with
  | some n => ViewError.record "Os" (("code", toString n) :: cause)
  | none => ViewError.record "Error" cause

end OsError

/-- Why a file gives no text. -/
inductive LoadError where
  /-- The system cannot read it. -/
  | system (e : OsError)
  /-- Its bytes are not UTF-8. -/
  | notText
  deriving DecidableEq, Repr

namespace LoadError

/-- The reason in words. -/
def message : LoadError → String
  | system e => e.message
  | notText => "stream did not contain valid UTF-8"

/-- The kind of error, for diagnostics. -/
def label : LoadError → String
  | system e => e.label
  | notText => "InvalidData"

end LoadError

/-- Failures of input and output. -/
inductive IoError where
  /-- A sink takes no more bytes. -/
  | sinkFull
  /-- A sink refuses to flush. -/
  | flushRefused
  /-- There is nothing to convert. -/
  | noSource
  /-- A view cannot be loaded from a file. -/
  | unreadable (path : String) (reason : LoadError)
  /-- No temporary file can be made for the output. -/
  | staging (e : OsError)
  /-- The permission bits of the temporary file cannot be set. -/
  | permissions (e : OsError)
  deriving DecidableEq, Repr

namespace IoError

/-- The sentence for a user. -/
def message : IoError → String
  | sinkFull => "sink is full"
  | flushRefused => "flush refused"
  | noSource => "No Jelly view was provided to the converter"
  | unreadable path reason => s!"Failed to read Jelly view from '{path}': {reason.message}"
  | staging e | permissions e => e.message

/-- The kind of error, for diagnostics. -/
def label : IoError → String
  | sinkFull | flushRefused => "Other"
  | noSource => "InvalidInput"
  | unreadable _ reason => reason.label
  | staging e | permissions e => e.label

/-- The structured form for a failed run. -/
def diagnostic : IoError → String
  | permissions e => e.diagnostic
  | e => ViewError.record "Custom" [("kind", e.label), ("error", Text.quoted e.message)]

end IoError

/-- The reasons for which a conversion fails. -/
inductive ConversionError where
  /-- The view cannot be read. -/
  | view (e : ViewError)
  /-- A control tag is not supported. -/
  | unsupportedTag (tag : String) (pos : Xml.Position)
  /-- Input or output failed. -/
  | io (e : IoError)
  /-- The finished output cannot be moved to its place. -/
  | placement (e : OsError)
  deriving DecidableEq, Repr

namespace ConversionError

/-- The sentence for a user. -/
def message : ConversionError → String
  | view e => s!"Reading the Jelly view failed: {e.message}"
  | unsupportedTag tag pos => s!"Unsupported control tag <{tag}> at {pos.describe}"
  | io e => s!"I/O error: {e.message}"
  | placement e =>
    "Failed to move the converted view into place: failed to persist temporary file: " ++ e.message

/-- The structured form for a failed run. -/
def diagnostic : ConversionError → String
  | view e => s!"Source({e.diagnostic})"
  | unsupportedTag tag pos => ViewError.record "UnsupportedControlTag"
      [("tag", Text.quoted tag), ("location", ViewError.place pos)]
  | io e => s!"Io({e.diagnostic})"
  | placement e => s!"Persist(PersistError({e.diagnostic}))"

/-- The error is about the temporary file, whose name is not fixed. -/
def isAboutStaging : ConversionError → Bool
  | io (.staging _) | placement _ => true
  | _ => false

end ConversionError

end GroovyViews
