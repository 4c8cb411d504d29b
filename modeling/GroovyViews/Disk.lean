import GroovyViews.Conversion.Error
import GroovyViews.Disk.Path

/-!
# Disks

A disk is a tree of directories and files, listed by their places in it. The directories on the way
from the root to the working directory are always there; any other one has to exist before something
can be put in it. Entries have permission bits. The owner's bits of a file say what the user may do
with it, they survive a change of its content, and the umask keeps some bits from new entries.
-/

namespace GroovyViews

/-- What can stand at a place. -/
inductive Entry where
  /-- A directory with its permission bits. -/
  | directory (mode : Nat)
  /-- A file with its permission bits. -/
  | file (content : List UInt8) (mode : Nat)
  deriving DecidableEq, Repr

/-- A place: the names that lead to it from the root. -/
abbrev Place := List String

/-- A tree of directories and files. -/
structure Disk where
  /-- The entries, in the order in which they were made. -/
  entries : List (Place × Entry)
  /-- The working directory. -/
  home : Place
  /-- The permission bits that new entries do not get. -/
  umask : Nat
  deriving DecidableEq, Repr

/-- What a path leads to. -/
inductive Target where
  /-- A directory that is not named but given by its position. -/
  | directory (place : Place)
  /-- A named place, where something may stand or not. -/
  | entry (place : Place)
  deriving DecidableEq, Repr

namespace Entry

/-- The permission bits. -/
def mode : Entry → Nat
  | directory mode | file _ mode => mode

/-- The entry is a directory. -/
def isDirectory : Entry → Bool
  | directory _ => true
  | file _ _ => false

/-- The permission bits let the owner read the file. -/
def mayRead (mode : Nat) : Bool := mode.testBit 8

/-- The permission bits let the owner write the file. -/
def mayWrite (mode : Nat) : Bool := mode.testBit 7

/-- The entry is a file that its owner may not read. -/
def isHidden : Entry → Bool
  | directory _ => false
  | file _ mode => !mayRead mode

end Entry

namespace Disk

/-- An empty working directory right below the root. -/
def empty : Disk := ⟨[], ["work"], 0o022⟩

/-- The permission bits of a new entry: those asked for, without those of the umask. -/
def newMode (d : Disk) (requested : Nat) : Nat := requested ^^^ (requested &&& d.umask)

/-- The permission bits of a new file. -/
def newFileMode (d : Disk) : Nat := d.newMode 0o666

/-- The permission bits of the directories on the way to the working directory. -/
def standingMode : Nat := 0o755

/-- What stands at a place. -/
def get? (d : Disk) (place : Place) : Option Entry :=
  if place.isPrefixOf d.home then some (.directory standingMode) else d.entries.lookup place

/-- There is a directory at the place. -/
def isDirectory (d : Disk) (place : Place) : Bool := (d.get? place).any Entry.isDirectory

/-- Entries with the one at a place replaced, or with a new one at the end. -/
def insertEntry (place : Place) (entry : Entry) : List (Place × Entry) → List (Place × Entry)
  | [] => [(place, entry)]
  | (other, previous) :: rest =>
    if other = place then (place, entry) :: rest
    else (other, previous) :: insertEntry place entry rest

/-- The disk with an entry put at a place. -/
def insert (d : Disk) (place : Place) (entry : Entry) : Disk :=
  { d with entries := insertEntry place entry d.entries }

/-- The disk without the entry at a place. -/
def erase (d : Disk) (place : Place) : Disk :=
  { d with entries := d.entries.filter fun e => e.1 ≠ place }

/-- The directory in which a path starts. -/
def startOf (d : Disk) (p : Path) : Place := if p.isAbsolute then [] else d.home

/-- The directory reached from `here` by following names. The root is the directory around itself.
-/
def enter (d : Disk) (here : Place) : List String → Except OsError Place
  | [] => .ok here
  | name :: rest =>
    if name = "." then d.enter here rest
    else if name = ".." then d.enter here.dropLast rest
    else if Path.isLongName name then .error .nameTooLong
    else
      match d.get? (here ++ [name]) with
      | none => .error .notFound
      | some (.file _ _) => .error .notADirectory
      | some (.directory _) => d.enter (here ++ [name]) rest

/-- What a path leads to. -/
def locate (d : Disk) (p : Path) : Except OsError Target :=
  if p.hasNul then .error .nulInName
  else if p.isTooLong then .error .nameTooLong
  else
    match p.names.getLast? with
    | none => if p.isAbsolute then .ok (.directory []) else .error .notFound
    | some name => do
      let here ← d.enter (d.startOf p) p.names.dropLast
      if Path.isDots name then return .directory (if name = "." then here else here.dropLast)
      else if Path.isLongName name then .error .nameTooLong
      else return .entry (here ++ [name])

/-- The content of a file. -/
def read (d : Disk) (p : Path) : Except OsError (List UInt8) := do
  match ← d.locate p with
  | .directory _ => .error .isADirectory
  | .entry place =>
    match d.get? place with
    | none => .error .notFound
    | some (.directory _) => .error .isADirectory
    | some (.file content mode) =>
      if p.slashAtEnd then .error .notADirectory
      else if Entry.mayRead mode then .ok content
      else .error .permissionDenied

/-- What stands where a path leads to. A file is not found under a path that ends with a slash. -/
def find? (d : Disk) (p : Path) : Option Entry :=
  match d.locate p with
  | .ok (.directory place) => d.get? place
  | .ok (.entry place) => (d.get? place).filter fun e => e.isDirectory || !p.slashAtEnd
  | .error _ => none

/-- Writes a file and sets its permission bits, if some are given. A file that is there keeps its
own otherwise. -/
def put? (d : Disk) (p : Path) (content : List UInt8) (mode : Option Nat) : Option Disk :=
  match d.locate p with
  | .ok (.entry place) =>
    match d.get? place with
    | some (.directory _) => none
    | some (.file _ old) =>
      if p.slashAtEnd || !Entry.mayWrite old then none
      else some (d.insert place (.file content (mode.getD old)))
    | none =>
      if p.slashAtEnd then none
      else some (d.insert place (.file content (mode.getD d.newFileMode)))
  | _ => none

/-- Makes a directory where nothing is. -/
def makeDirectory? (d : Disk) (p : Path) : Option Disk :=
  match d.locate p with
  | .ok (.entry place) =>
    if (d.get? place).isSome then none else some (d.insert place (.directory (d.newMode 0o777)))
  | _ => none

/-- Removes a file. -/
def remove? (d : Disk) (p : Path) : Option Disk :=
  match d.locate p with
  | .ok (.entry place) =>
    match d.get? place with
    | some (.file _ _) => if p.slashAtEnd then none else some (d.erase place)
    | _ => none
  | _ => none

/-- Sets the permission bits of a file, unless the system refuses that. -/
def setMode (d : Disk) (place : Place) (mode : Nat) (refusal : Option OsError) :
    Except OsError Disk :=
  match refusal, d.get? place with
  | some e, _ => .error e
  | none, some (.file content _) => .ok (d.insert place (.file content mode))
  | none, _ => .error .notFound

/-- Moves a file to a path, over the file that may be there. -/
def move (d : Disk) (source : Place) (p : Path) : Except OsError Disk := do
  if p.hasNul then .error .invalidArgument
  else
    match ← d.locate p with
    | .directory _ => .error .busy
    | .entry place =>
      if p.slashAtEnd then .error .notADirectory
      else
        match d.get? place, d.get? source with
        | some (.directory _), _ => .error .isADirectory
        | _, some entry => .ok ((d.erase source).insert place entry)
        | _, none => .error .notFound

/-- A name longer than all names on the disk, so that nothing has it. -/
def freshName (d : Disk) : String :=
  let names := d.home ++ d.entries.flatMap (·.1)
  let longest := names.foldl (fun n name => max n name.length) 0
  ".tmp" ++ String.ofList (List.replicate longest 'x')

/-- The order of names by their characters, for places by the first name that differs; a directory
comes right before what is in it. -/
def placeLE : Place → Place → Bool
  | [], _ => true
  | _ :: _, [] => false
  | a :: as, b :: bs => if a = b then placeLE as bs else a < b

/-- The entries in the working directory with their names from there on. -/
def ownEntries (d : Disk) : List (Place × Entry) :=
  d.entries.filterMap fun e => (d.home.isPrefixOf? e.1).map fun names => (names, e.2)

/-- The entries in the working directory, each directory followed by what is in it and its entries
in the order of their names. There is no listing if one is a file that its owner may not read. -/
def listing? (d : Disk) : Option (List (Place × Entry)) :=
  if d.ownEntries.any fun e => e.2.isHidden then none
  else some (d.ownEntries.mergeSort fun a b => placeLE a.1 b.1)

end Disk

end GroovyViews
