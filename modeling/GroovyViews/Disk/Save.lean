import GroovyViews.Conversion
import GroovyViews.Disk
import GroovyViews.Sink

/-!
# Saving a converted view

The view is written to a new file beside its destination, which takes the place of the destination
only after the whole conversion has succeeded. A run that fails before that removes the new file. If
the new file cannot be put in its place, then the error holds it, and it is removed when the error
is dropped.
-/

namespace GroovyViews

namespace Disk

/-- What a new file's name adds to the length of its directory's path. -/
def stagedNameLength : Nat := 11

/-- Makes an empty file with a fresh name in the directory of a path. -/
def stage (d : Disk) (p : Path) : Except OsError (Place × Disk) := do
  if Path.maxPathLength < p.directoryLength + stagedNameLength then .error .nameTooLong
  else
    let here ← d.enter (if p.isBare then d.home else d.startOf p) p.directory
    let place := here ++ [d.freshName]
    return (place, d.insert place (.file [] d.newFileMode))

/-- Gives a file the permission bits of what stands where a path leads to, if there is something. -/
def handOn (d : Disk) (place : Place) (p : Path) (refusal : Option OsError) : Except OsError Disk :=
  match d.find? p with
  | none => .ok d
  | some entry => d.setMode place entry.mode refusal

end Disk

/-- How saving ended. -/
structure Saved where
  /-- The disk afterwards. -/
  disk : Disk
  /-- The new file that the error still holds. -/
  held : Option Place
  /-- The notices given and the outcome. -/
  result : Traced Notice ConversionError Unit

/-- Drops the outcome, and with it the file that an error holds: the disk after that. -/
def Saved.drop (s : Saved) : Disk :=
  match s.held with
  | none => s.disk
  | some place => s.disk.erase place

namespace Conversion

/-- Converts the view and saves it under a path. Given are what the new file takes in and for what
reason the system refuses to change its permission bits, if it does. -/
def saveThrough (c : Conversion) (sink : Sink) (refusal : Option OsError) (path : String)
    (d : Disk) : Saved :=
  let p : Path := ⟨path⟩
  match d.stage p with
  | .error e => ⟨d, none, .fail (.io (.staging e))⟩
  | .ok (temporary, staged) =>
    let run := sink.run c.emission
    let written := staged.insert temporary (.file run.sink.stored d.newFileMode)
    match run.outcome with
    | .error e => ⟨written.erase temporary, none, run.notices, .error e⟩
    | .ok _ =>
      match written.handOn temporary p refusal with
      | .error e => ⟨written.erase temporary, none, run.notices, .error (.io (.permissions e))⟩
      | .ok finished =>
        match finished.move temporary p with
        | .error e => ⟨finished, some temporary, run.notices, .error (.placement e)⟩
        | .ok done => ⟨done, none, run.notices ++ [.wrote path], .ok ()⟩

/-- Converts the view and saves it under a path on a disk with enough room, where permission bits
can be changed. -/
def saveTo (c : Conversion) (path : String) (d : Disk) : Saved :=
  c.saveThrough .unlimited none path d

end Conversion

end GroovyViews
