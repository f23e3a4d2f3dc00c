import CodeGraph.Record

/-!
# Images

The image of a graph is a binary document that lists its nodes, its edges and its declared
fields.  Numbers are little-endian words of fixed width, texts and lists begin with their
length as a word of eight octets, and an optional value begins with an octet 0 or 1.

A `Format` is a way of writing values together with a way of reading them off the front
of a byte string.  `Format.Reads` says that a value is read back whatever follows it.
-/

namespace CodeGraph

/-- How values of a type are written, and how they are read off the front of octets. -/
structure Format (α : Type) where
  write : α → Bytes
  read? : Bytes → Option (α × Bytes)

namespace Format

variable {α β : Type}

/-- Whether a value is read back from what is written of it, whatever follows. -/
def Reads (format : Format α) (a : α) : Prop :=
  ∀ rest, format.read? (format.write a ++ rest) = some (a, rest)

/-- Numbers as little-endian words. -/
def word (width : Nat) : Format Nat where
  write := Bytes.ofNatLE width
  read? bs := (Bytes.take? width bs).map fun (field, rest) => (Bytes.toNatLE field, rest)

/-- Texts as their length and their octets. -/
def text : Format String where
  write s := (word 8).write (Utf8.encode s).length ++ Utf8.encode s
  read? bs := do
    let (length, bs) ← (word 8).read? bs
    let (field, bs) ← Bytes.take? length bs
    let s ← Utf8.decode? field
    pure (s, bs)

/-- Truth values as an octet 0 or 1. -/
def flag : Format Bool where
  write b := [if b then 1 else 0]
  read?
    | 0 :: bs => some (false, bs)
    | 1 :: bs => some (true, bs)
    | _ => none

/-- Optional values as an octet that tells whether a value follows. -/
def option (format : Format α) : Format (Option α) where
  write
    | none => [0]
    | some a => 1 :: format.write a
  read?
    | 0 :: bs => some (none, bs)
    | 1 :: bs => (format.read? bs).map fun (a, rest) => (some a, rest)
    | _ => none

/-- Reads as many values as told. -/
def readMany (format : Format α) : (count : Nat) → Bytes → Option (List α × Bytes)
  | 0, bs => some ([], bs)
  | count + 1, bs => do
    let (a, bs) ← format.read? bs
    let (rest, bs) ← readMany format count bs
    pure (a :: rest, bs)

/-- Lists as their length and their items. -/
def list (format : Format α) : Format (List α) where
  write items := (word 8).write items.length ++ items.flatMap format.write
  read? bs := do
    let (count, bs) ← (word 8).read? bs
    format.readMany count bs

/-- Two values, one after the other. -/
def pair (first : Format α) (second : Format β) : Format (α × β) where
  write p := first.write p.1 ++ second.write p.2
  read? bs := do
    let (a, bs) ← first.read? bs
    let (b, bs) ← second.read? bs
    pure ((a, b), bs)

/-- The values of another type that some values of a format stand for. -/
def via (format : Format α) (toForm : β → α) (ofForm? : α → Option β) : Format β where
  write b := format.write (toForm b)
  read? bs := do
    let (a, bs) ← format.read? bs
    let b ← ofForm? a
    pure (b, bs)

end Format

/-! ### The parts of an image -/

/-- Identifiers as words of sixteen octets. -/
def NodeId.format : Format NodeId :=
  (Format.word 16).via NodeId.toNat (some ∘ NodeId.ofNat)

/-- Nodes field by field. -/
def Node.format : Format Node :=
  (NodeId.format.pair (Format.text.option.pair (Format.text.option.pair (Format.text.option.pair
    (Format.flag.pair (Format.text.option.pair Format.text.option)))))).via
    (fun n => (n.id, n.type, n.name, n.file, n.exported, n.metadata, n.semanticId))
    fun (id, type, name, file, exported, metadata, semanticId) =>
      some { id, type, name, file, exported, metadata, semanticId }

/-- Edges field by field. -/
def Edge.format : Format Edge :=
  (NodeId.format.pair (NodeId.format.pair (Format.text.option.pair Format.text.option))).via
    (fun e => (e.src, e.dst, e.type, e.metadata))
    fun (src, dst, type, metadata) => some { src, dst, type, metadata }

/-- The kinds of fields in the order of their numbers. -/
def FieldKind.all : List FieldKind := [.text, .truth, .integer, .identifier]

/-- The number of a kind of field. -/
def FieldKind.number : FieldKind → Nat
  | .text => 0
  | .truth => 1
  | .integer => 2
  | .identifier => 3

/-- Kinds of fields as words of four octets. -/
def FieldKind.format : Format FieldKind :=
  (Format.word 4).via FieldKind.number fun n => FieldKind.all[n]?

/-- Declarations field by field. -/
def FieldDecl.format : Format FieldDecl :=
  (Format.text.pair (FieldKind.format.pair Format.text.list.option)).via
    (fun d => (d.name, d.kind, d.nodeTypes))
    fun (name, kind, nodeTypes) => some { name, kind, nodeTypes }

/-- What is kept of a graph on disk. -/
structure Image where
  nodes : List Node
  edges : List Edge
  fields : List FieldDecl

namespace Image

/-- Images part by part. -/
def format : Format Image :=
  (Node.format.list.pair (Edge.format.list.pair FieldDecl.format.list)).via
    (fun image => (image.nodes, image.edges, image.fields))
    fun (nodes, edges, fields) => some { nodes, edges, fields }

/-- The octets of an image. -/
def encode (image : Image) : Bytes :=
  format.write image

/-- The image at the front of octets; what follows it does not matter. -/
def decode? (bs : Bytes) : Option Image :=
  (format.read? bs).map Prod.fst

end Image

end CodeGraph
