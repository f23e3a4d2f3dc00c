import CodeGraph.Pack.Head
import CodeGraph.Text.Utf8

/-!
# MessagePack items

An item is a whole MessagePack document.  Arrays, maps and extensions may nest `maxNesting`
deep.  A text that is not UTF-8 is read as plain octets.
-/

namespace CodeGraph.Pack

/-- A MessagePack document. -/
inductive Item where
  | nil
  | bool (value : Bool)
  | int (form : IntForm) (value : Int)
  | float32 (bits : UInt32)
  | float64 (value : Binary64)
  | str (value : String)
  | bin (content : Bytes)
  | arr (items : List Item)
  | map (entries : List (Item × Item))
  | ext (kind : UInt8) (content : Bytes)
deriving Inhabited

/-- How deep arrays, maps and extensions may nest. -/
def maxNesting : Nat := 1023

namespace Item

/-- An integer in its shortest form. -/
def ofInt (n : Int) : Item := .int (.shortest n) n

/-- A number in its shortest form. -/
def ofNat (n : Nat) : Item := ofInt n

/-- A list of texts. -/
def ofTexts (texts : List String) : Item := .arr (texts.map .str)

/-- A map whose keys are texts. -/
def record (fields : List (String × Item)) : Item :=
  .map (fields.map fun (name, item) => (.str name, item))

/-! ### Writing -/

mutual

/-- The octets of an item. -/
def write : Item → Bytes
  | nil => Head.nil.write
  | bool value => (Head.bool value).write
  | int form value => (Head.int form value).write
  | float32 bits => (Head.float32 bits).write
  | float64 value => (Head.float64 value).write
  | str value => (Head.str (Utf8.encode value).length).write ++ Utf8.encode value
  | bin content => (Head.bin content.length).write ++ content
  | arr items => (Head.arr items.length).write ++ writeItems items
  | map entries => (Head.map entries.length).write ++ writeEntries entries
  | ext kind content => (Head.ext content.length).write ++ kind :: content

/-- The octets of items, one after the other. -/
def writeItems : List Item → Bytes
  | [] => []
  | item :: items => item.write ++ writeItems items

/-- The octets of the entries of a map, one after the other. -/
def writeEntries : List (Item × Item) → Bytes
  | [] => []
  | (key, value) :: entries => key.write ++ (value.write ++ writeEntries entries)

end

/-! ### Reading -/

/-- Reads as many things as told. -/
def readMany? {α : Type} (read? : Bytes → Option (α × Bytes)) :
    (count : Nat) → Bytes → Option (List α × Bytes)
  | 0, bs => some ([], bs)
  | count + 1, bs => do
    let (a, bs) ← read? bs
    let (rest, bs) ← readMany? read? count bs
    pure (a :: rest, bs)

/-- Reads a key and a value. -/
def readPair? {α β : Type} (key? : Bytes → Option (α × Bytes))
    (value? : Bytes → Option (β × Bytes)) (bs : Bytes) : Option ((α × β) × Bytes) := do
  let (key, bs) ← key? bs
  let (value, bs) ← value? bs
  pure ((key, value), bs)

/-- Reads what follows a head.  What lies inside arrays and maps is read as told, if items
may nest that deep at all; an extension counts as nested although it holds no items. -/
def readBody? (inner : Option (Bytes → Option (Item × Bytes))) (head : Head) (bs : Bytes) :
    Option (Item × Bytes) :=
  match head with
  | .nil => some (nil, bs)
  | .bool value => some (bool value, bs)
  | .int form value => some (int form value, bs)
  | .float32 bits => some (float32 bits, bs)
  | .float64 value => some (float64 value, bs)
  | .str n => (Bytes.take? n bs).map fun (field, rest) =>
      match Utf8.decode? field with
      | some s => (str s, rest)
      | none => (bin field, rest)
  | .bin n => (Bytes.take? n bs).map fun (field, rest) => (bin field, rest)
  | .arr n => inner.bind fun read? =>
      (readMany? read? n bs).map fun (items, rest) => (arr items, rest)
  | .map n => inner.bind fun read? =>
      (readMany? (readPair? read? read?) n bs).map fun (entries, rest) => (map entries, rest)
  | .ext n =>
    match inner, bs with
    | some _, kind :: bs =>
      (Bytes.take? n bs).map fun (field, rest) => (ext kind field, rest)
    | _, _ => none

/-- The item at the front of octets, if its arrays, maps and extensions nest at most `depth`
deep. -/
def read? : (depth : Nat) → Bytes → Option (Item × Bytes)
  | 0, bs => (Head.read? bs).bind fun (head, bs) => readBody? none head bs
  | depth + 1, bs =>
    (Head.read? bs).bind fun (head, bs) => readBody? (some (read? depth)) head bs

end Item

end CodeGraph.Pack
