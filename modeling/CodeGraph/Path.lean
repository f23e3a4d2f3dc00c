/-!
# Paths

A path keeps the text in which it was written.  Two readings of it are used: the steps
that a file system takes along it (`Path.steps`), in which `..` goes back, and the names
that are written in it (`Path.names`), in which `..` is a name like others.
-/

namespace CodeGraph

/-- A path as it was written. -/
structure Path where
  text : String
deriving DecidableEq

namespace Path

instance : Inhabited Path := ⟨⟨""⟩⟩

/-- Whether a path begins at the root. -/
def isAbsolute (path : Path) : Bool :=
  path.text.startsWith "/"

/-- The path of something named relative to a directory; an absolute name stands for
itself. -/
def join (base : Path) (name : String) : Path :=
  if name.startsWith "/" || base.text.isEmpty then ⟨name⟩
  else if base.text.endsWith "/" then ⟨base.text ++ name⟩
  else ⟨base.text ++ "/" ++ name⟩

/-- What is written between the slashes of a path. -/
def parts (path : Path) : List String := path.text.splitOn "/"

/-! ### Steps -/

/-- A step along a path: it stays in a directory, goes back to the one above, or leads to
what has a name there. -/
inductive Step where
  | stay
  | back
  | into (name : String)
deriving DecidableEq

/-- The step that stands between two slashes; nothing is no step. -/
def Step.ofPart? (part : String) : Option Step :=
  if part.isEmpty then none
  else if part == "." then some .stay
  else if part == ".." then some .back
  else some (.into part)

/-- The steps along a path. -/
def steps (path : Path) : List Step := path.parts.filterMap Step.ofPart?

/-- Whether the last step along a path leads to a name. -/
def endsInName (path : Path) : Bool :=
  match path.steps.getLast? with
  | some (.into _) => true
  | _ => false

/-- Whether a path ends in a slash; such a path can only be that of a directory. -/
def endsInSlash (path : Path) : Bool := path.text.endsWith "/"

/-- Paths are shorter than this, in octets. -/
def lengthBound : Nat := 4096

/-- Whether a file system takes a path at all: it is not empty, not too long, and holds no
character of code 0. -/
def isUsable (path : Path) : Bool :=
  !path.text.isEmpty && path.text.utf8ByteSize < lengthBound && !path.text.contains '\x00'

/-! ### Names -/

/-- The names written in a path, each with its place between the slashes.  A dot counts as
a name only at the very beginning. -/
def placedNames (path : Path) : List (String × Nat) :=
  path.parts.zipIdx.filter fun (part, place) =>
    !part.isEmpty && (part != "." || place == 0)

/-- The names written in a path. -/
def names (path : Path) : List String :=
  path.placedNames.map Prod.fst

/-- Whether two paths are the same but for slashes and dots that change nothing. -/
def agrees (a b : Path) : Bool :=
  a.isAbsolute == b.isAbsolute && a.names == b.names

/-- The path up to one of its parts. -/
def upTo (path : Path) (place : Nat) : Path :=
  ⟨String.intercalate "/" (path.parts.take (place + 1))⟩

/-- The path up to its last name, which is left out; `none` when it has no name.  Before
the first name there is nothing but the root. -/
def parent? (path : Path) : Option Path :=
  match path.placedNames.reverse with
  | [] => none
  | [_] => some ⟨if path.isAbsolute then "/" else ""⟩
  | _ :: (_, place) :: _ => some (path.upTo place)

/-- The path up to each of its names but the last, and then the whole path. -/
def beginnings (path : Path) : List Path :=
  path.placedNames.dropLast.map (fun (_, place) => path.upTo place) ++ [path]

end Path

end CodeGraph
