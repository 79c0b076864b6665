import RepoAudit.Bytes.Utf8
import RepoAudit.Disk.Path
import RepoAudit.Text.Quoted

/-!
# Disks

Files and directories by their places, which are lists of names from the root. An operation on a path
fails with the cause and the path as it was given. A file is replaced in one step: whoever reads it finds
the old octets or the new ones.
-/

namespace RepoAudit

/-- What stands at a place. -/
inductive DiskEntry where
  | directory
  | file (octets : List UInt8)
  deriving DecidableEq, Repr

/-- Why an operation on a path fails. -/
inductive DiskCause where
  | missing
  | present
  | notDirectory
  | isDirectory
  | nameTooLong
  deriving DecidableEq, Repr

/-- The number of a cause. -/
def DiskCause.number : DiskCause → Nat
  | missing => 2
  | present => 17
  | notDirectory => 20
  | isDirectory => 21
  | nameTooLong => 36

/-- The wording of a cause. -/
def DiskCause.text : DiskCause → String
  | missing => "No such file or directory"
  | present => "File exists"
  | notDirectory => "Not a directory"
  | isDirectory => "Is a directory"
  | nameTooLong => "File name too long"

/-- A failed operation, with the one or two paths that it was about. -/
structure DiskError where
  cause : DiskCause
  path : Path
  target : Option Path := none
  deriving DecidableEq, Repr

/-- The text of the failure. -/
def DiskError.message (e : DiskError) : String :=
  "[Errno " ++ toString e.cause.number ++ "] " ++ e.cause.text ++ ": " ++ Text.quoted e.path.text ++
    match e.target with
    | some target => " -> " ++ Text.quoted target.text
    | none => ""

/-- Files and directories, and the directory that paths start from. -/
structure Disk where
  entries : List (List String × DiskEntry) := []
  current : List String := []
  deriving Repr

namespace Disk

/-- The greatest number of octets of a name. -/
def nameLimit : Nat := 255

/-- What stands at a place. The root is a directory. -/
def find? (disk : Disk) (place : List String) : Option DiskEntry :=
  if place.isEmpty then some .directory else disk.entries.lookup place

/-- Puts an entry at a place. -/
def put (disk : Disk) (place : List String) (entry : DiskEntry) : Disk :=
  if disk.entries.any (·.1 == place) then
    { disk with
      entries := disk.entries.map fun old => if old.1 == place then (place, entry) else old }
  else { disk with entries := disk.entries ++ [(place, entry)] }

/-- Removes the entry at a place. -/
def remove (disk : Disk) (place : List String) : Disk :=
  { disk with entries := disk.entries.filter (·.1 != place) }

/-- The place that names lead to from a place. Every name but the last has to lead to a directory. -/
def walk (disk : Disk) (place : List String) : List String → Except DiskCause (List String)
  | [] => .ok place
  | part :: rest =>
    match disk.find? place with
    | none => .error .missing
    | some (.file _) => .error .notDirectory
    | some .directory =>
      if part == ".." then disk.walk place.dropLast rest
      else if nameLimit < part.utf8ByteSize then .error .nameTooLong
      else disk.walk (place ++ [part]) rest

/-- The place of a path. -/
def locate (disk : Disk) (path : Path) : Except DiskCause (List String) :=
  disk.walk (if path.rooted then [] else disk.current) path.parts

/-- The current directory as a path. -/
def currentPath (disk : Disk) : Path := ⟨true, disk.current⟩

/-- What stands at the end of a path, if anything does. -/
def entry? (disk : Disk) (path : Path) : Except DiskError (Option DiskEntry) :=
  match disk.locate path with
  | .ok place => .ok (disk.find? place)
  | .error .nameTooLong => .error { cause := .nameTooLong, path }
  | .error _ => .ok none

/-- True when a path leads to a directory. -/
def isDirectory (disk : Disk) (path : Path) : Except DiskError Bool := do
  return (← disk.entry? path) == some .directory

/-- True when a path leads to something. -/
def exists? (disk : Disk) (path : Path) : Except DiskError Bool := do
  return (← disk.entry? path).isSome

/-- The octets of a file. -/
def read (disk : Disk) (path : Path) : Except DiskError (List UInt8) :=
  match disk.locate path with
  | .error cause => .error { cause, path }
  | .ok place =>
    match disk.find? place with
    | none => .error { cause := .missing, path }
    | some .directory => .error { cause := .isDirectory, path }
    | some (.file octets) => .ok octets

/-- Writes a file, in place of what the file held before. -/
def write (disk : Disk) (path : Path) (octets : List UInt8) : Except DiskError Disk :=
  match disk.locate path with
  | .error cause => .error { cause, path }
  | .ok place =>
    match disk.find? place with
    | some .directory => .error { cause := .isDirectory, path }
    | _ => .ok (disk.put place (.file octets))

/-- Makes a directory whose parent is there. -/
def makeDirectory (disk : Disk) (path : Path) : Except DiskError Disk :=
  match disk.locate path with
  | .error cause => .error { cause, path }
  | .ok place =>
    match disk.find? place with
    | some _ => .error { cause := .present, path }
    | none => .ok (disk.put place .directory)

/-- Makes a directory, which may be there already. -/
def ensureDirectory (disk : Disk) (path : Path) : Except DiskError Disk :=
  match disk.makeDirectory path with
  | .ok disk => .ok disk
  | .error e => do
    if ← disk.isDirectory path then .ok disk else .error e

/-- Makes a directory and those above it, with what the attempt leaves on the disk when it fails. The
first argument bounds the number of names. -/
def ensureAll (path : Path) : Nat → Disk → Disk × Option DiskError
  | 0, disk => (disk, none)
  | steps + 1, disk =>
    match disk.makeDirectory path with
    | .ok disk => (disk, none)
    | .error e =>
      if e.cause = .missing ∧ path.parts ≠ [] then
        match ensureAll path.parent steps disk with
        | (disk, some failure) => (disk, some failure)
        | (disk, none) =>
          match disk.ensureDirectory path with
          | .ok disk => (disk, none)
          | .error failure => (disk, some failure)
      else
        match disk.isDirectory path with
        | .ok true => (disk, none)
        | .ok false => (disk, some e)
        | .error failure => (disk, some failure)

/-- Makes a directory and those above it. -/
def makeDirectories (disk : Disk) (path : Path) : Disk × Option DiskError :=
  ensureAll path (path.parts.length + 1) disk

/-- Moves a file to a place, where it takes the place of another file. -/
def replace (disk : Disk) (path target : Path) : Except DiskError Disk :=
  let failure (cause : DiskCause) : DiskError := { cause, path, target := some target }
  match disk.locate path, disk.locate target with
  | .error cause, _ => .error (failure cause)
  | _, .error cause => .error (failure cause)
  | .ok source, .ok goal =>
    match disk.find? source, disk.find? goal with
    | none, _ => .error (failure .missing)
    | some .directory, some (.file _) => .error (failure .notDirectory)
    | some (.file _), some .directory => .error (failure .isDirectory)
    | some entry, _ => .ok ((disk.remove source).put goal entry)

/-- The files that are new or have changed since an earlier state, by their places. -/
def changedFiles (before after : Disk) : List (List String × List UInt8) :=
  after.entries.filterMap fun (place, entry) =>
    match entry with
    | .file octets => if before.find? place == some entry then none else some (place, octets)
    | .directory => none

end Disk

end RepoAudit
