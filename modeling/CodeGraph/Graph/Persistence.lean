import CodeGraph.Graph.Image
import CodeGraph.Graph.Snapshot

/-!
# Persistence

A persistent graph lies in a directory of its own, in the file `graph.bin`.  Flushing
writes the image to a temporary file first and then moves it into place, so that the
image on disk is always whole.
-/

namespace CodeGraph.Graph

/-- The name of the image in the directory of a graph. -/
def imageName : String := "graph.bin"

/-- The name under which an image is written before it is moved into place. -/
def draftName : String := "graph.bin.tmp"

/-- The image of a graph. -/
def image (g : Graph) : Image where
  nodes := g.nodes.toList.map Prod.snd
  edges := g.edges.toList.map Prod.snd
  fields := g.fields

/-- The graph of an image. -/
def ofImage (location : Path) (image : Image) : Graph :=
  { ({ empty (some location) with fields := image.fields }.addNodes image.nodes).addEdges
      image.edges true with unflushed := 0 }

/-! ### Opening -/

/-- A new graph in a directory, which is made if it is missing. -/
def create (disk : Disk) (location : Path) : Except Failure Graph × Disk :=
  match disk.createDirectory location with
  | (true, disk) => (.ok (empty (some location)), disk)
  | (false, disk) => (.error .io, disk)

/-- Whether there is an image in a directory. -/
def hasImage (disk : Disk) (location : Path) : Bool :=
  disk.contains (location.join imageName)

/-- The graph in a directory; one without an image is empty. -/
def load (disk : Disk) (location : Path) : Except Failure Graph :=
  if hasImage disk location then
    match (disk.read? (location.join imageName)).bind Image.decode? with
    | some image => .ok (ofImage location image)
    | none => .error .serialization
  else if disk.isDirectory location then .ok (empty (some location))
  else .error (.invalidFormat s!"{location.text} is not a database directory")

/-- The graph in a directory if there is an image, otherwise a new one. -/
def loadOrCreate (disk : Disk) (location : Path) : Except Failure Graph × Disk :=
  if hasImage disk location then (load disk location, disk) else create disk location

/-! ### Flushing -/

/-- Writes an image into a directory: the disk afterwards, and whether all went well. -/
def writeImage (disk : Disk) (location : Path) (image : Image) : Bool × Disk :=
  match disk.createDirectory location with
  | (false, disk) => (false, disk)
  | (true, disk) =>
    match disk.write? (location.join draftName) image.encode with
    | none => (false, disk)
    | some disk =>
      match disk.rename? (location.join draftName) (location.join imageName) with
      | none => (false, disk)
      | some disk => (true, disk)

/-- Writes the image of a persistent graph.  A graph that cannot be written keeps its
count of changes. -/
def flush (g : Graph) (disk : Disk) : Except Failure Graph × Disk :=
  match g.location with
  | none => (.ok { g with unflushed := 0 }, disk)
  | some location =>
    match writeImage disk location g.image with
    | (true, disk) => (.ok { g with unflushed := 0 }, disk)
    | (false, disk) => (.error .io, disk)

/-- Builds the indexes anew and flushes.  The indexes stay built if flushing fails. -/
def compact (g : Graph) (disk : Disk) : Except Failure Unit × Graph × Disk :=
  match g.rebuild.flush disk with
  | (.ok g, disk) => (.ok (), g, disk)
  | (.error failure, disk) => (.error failure, g.rebuild, disk)

end CodeGraph.Graph
