import CodeGraph.Bytes
import CodeGraph.Path
import Std.Data.ExtTreeMap

/-!
# Directories and files

A disk tells for every place, which is a list of names, what is there: a directory, or a
file with its octets.  A path is followed step by step (`Disk.walk?`), and every step
starts in a directory that is there, so that `x/..` leads nowhere when `x` is missing.

The operations refuse what a file system refuses: a file cannot hold other entries, a file
cannot be written where a directory is or where its directory is missing, and a directory
is not overwritten by renaming a file onto it.  What was done before an operation was
refused stays done.
-/

namespace CodeGraph

/-- What a disk holds at some place. -/
inductive DiskEntry where
  | directory
  | file (content : Bytes)
deriving DecidableEq

/-- A file system. -/
structure Disk where
  entries : Std.ExtTreeMap (List String) DiskEntry

namespace Disk

/-- The disk on which nothing is. -/
def empty : Disk := ⟨∅⟩

/-- What is at some place; the place above all others is a directory. -/
def entryAt? (disk : Disk) (place : List String) : Option DiskEntry :=
  if place.isEmpty then some .directory else disk.entries[place]?

/-! ### Following paths -/

/-- The longest name, in octets. -/
def maxName : Nat := 255

/-- Where a step leads from a directory; above the root there is nothing but the root. -/
def stepFrom? (place : List String) : Path.Step → Option (List String)
  | .stay => some place
  | .back => some place.dropLast
  | .into name => if name.utf8ByteSize ≤ maxName then some (place ++ [name]) else none

/-- Where steps lead from some place; `none` when one of them does not start in a
directory or has a name that is too long.  At their end there may be nothing. -/
def walk? (disk : Disk) (place : List String) : (steps : List Path.Step) → Option (List String)
  | [] => some place
  | step :: steps =>
    if disk.entryAt? place = some .directory then
      (stepFrom? place step).bind fun next => disk.walk? next steps
    else none

/-- The place to which a path leads. -/
def place? (disk : Disk) (path : Path) : Option (List String) :=
  if path.isUsable then disk.walk? [] path.steps else none

/-- What is at a path.  A file is not found by a path that ends in a slash. -/
def lookup? (disk : Disk) (path : Path) : Option DiskEntry :=
  match (disk.place? path).bind disk.entryAt? with
  | some (.file content) => if path.endsInSlash then none else some (.file content)
  | found => found

/-- Whether anything is at a path. -/
def contains (disk : Disk) (path : Path) : Bool :=
  (disk.lookup? path).isSome

/-- Whether a path leads to a directory. -/
def isDirectory (disk : Disk) (path : Path) : Bool :=
  disk.lookup? path == some .directory

/-- The content of the file at a path. -/
def read? (disk : Disk) (path : Path) : Option Bytes :=
  match disk.lookup? path with
  | some (.file content) => some content
  | _ => none

/-! ### Directories -/

/-- Makes a directory, unless it is there already: whether it is there now, and the
disk. -/
def makeDirectory (disk : Disk) (path : Path) : Bool × Disk :=
  match disk.place? path with
  | none => (false, disk)
  | some place =>
    match disk.entryAt? place with
    | some .directory => (true, disk)
    | some (.file _) => (false, disk)
    | none => (true, ⟨disk.entries.insert place .directory⟩)

/-- Makes directories one after the other until one is refused. -/
def makeDirectories (disk : Disk) : (paths : List Path) → Bool × Disk
  | [] => (true, disk)
  | path :: paths =>
    match disk.makeDirectory path with
    | (true, disk) => disk.makeDirectories paths
    | (false, disk) => (false, disk)

/-- Makes a directory and those that its path leads through: whether they are there now,
and the disk.  There is nothing to make for the empty path. -/
def createDirectory (disk : Disk) (path : Path) : Bool × Disk :=
  if path.text.isEmpty then (true, disk)
  else if path.isUsable then disk.makeDirectories path.beginnings
  else (false, disk)

/-- The disk on which nothing is but one directory. -/
def withDirectory (path : Path) : Disk := (empty.createDirectory path).2

/-- Removes everything below a place. -/
def emptied (disk : Disk) (place : List String) : Disk :=
  ⟨disk.entries.filter fun other _ => !place.isPrefixOf other || other == place⟩

/-- Removes all that a directory holds and then the directory: whether that went well, and
the disk.  A directory is removed by its name only, so that a path that ends in a dot is
refused at the end; but one that led through what is gone by then finds nothing left to
do. -/
def removeDirectory (disk : Disk) (path : Path) : Bool × Disk :=
  match disk.place? path, disk.isDirectory path with
  | some place, true =>
    let disk := disk.emptied place
    if (disk.place? path).isNone then (true, disk)
    else if path.endsInName then (true, ⟨disk.entries.erase place⟩)
    else (false, disk)
  | _, _ => (false, disk)

/-! ### Files -/

/-- Writes a file; `none` when its directory is missing or a directory is at its place. -/
def write? (disk : Disk) (path : Path) (content : Bytes) : Option Disk :=
  match disk.place? path with
  | none => none
  | some place =>
    if path.endsInSlash || disk.entryAt? place = some .directory then none
    else some ⟨disk.entries.insert place (.file content)⟩

/-- Removes the file at a path; `none` when there is none. -/
def removeFile? (disk : Disk) (path : Path) : Option Disk :=
  match disk.place? path, disk.read? path with
  | some place, some _ => some ⟨disk.entries.erase place⟩
  | _, _ => none

/-- Moves a file onto another place, where a file may be; `none` when there is no such
file, the place is a directory, or its directory is missing.  A file moved onto itself
stays. -/
def rename? (disk : Disk) (source target : Path) : Option Disk := do
  let origin ← disk.place? source
  let goal ← disk.place? target
  let content ← disk.read? source
  let moved ← disk.write? target content
  if origin == goal then some disk else some ⟨moved.entries.erase origin⟩

/-! ### Listing -/

/-- Everything below a directory, relative to it, directories with a slash at the end. -/
def listing (disk : Disk) (path : Path) : List String :=
  let base := (disk.place? path).getD []
  let found := disk.entries.toList.filterMap fun (place, entry) =>
    let below := place.drop base.length
    if base.isPrefixOf place && !below.isEmpty then
      let name := String.intercalate "/" below
      some (if entry == .directory then name ++ "/" else name)
    else none
  found.mergeSort

end Disk

end CodeGraph
