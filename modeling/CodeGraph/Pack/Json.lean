import CodeGraph.Json.Basic
import CodeGraph.Pack.Value

/-!
# JSON values in MessagePack

JSON values are written as items; only texts serve as keys.  They are read in two ways:
from an item that has been read already (`Json.ofItem`), and straight from octets
(`Json.unpack`), where the first fault met decides.

Floating-point numbers that are not finite become `null`, and those of 32 bits are
widened.  Of equal keys the last wins.
-/

namespace CodeGraph

open Pack

namespace Json

mutual

/-- The item of a value, the form of integers being given. -/
def toItem (form : Int → IntForm) : Json → Item
  | null => .nil
  | bool value => .bool value
  | int value => .int (form value) value
  | float value => .float64 value
  | str value => .str value
  | arr items => .arr (toItems form items)
  | obj members => .map (toEntries form members)

/-- The items of values. -/
def toItems (form : Int → IntForm) : List Json → List Item
  | [] => []
  | value :: values => toItem form value :: toItems form values

/-- The entries of members. -/
def toEntries (form : Int → IntForm) : List (String × Json) → List (Item × Item)
  | [] => []
  | (key, value) :: members => (.str key, toItem form value) :: toEntries form members

end

/-- A floating-point number, or `null` if it is not finite. -/
def ofFloat (x : Binary64) : Json :=
  if x.isFinite then float x else null

/-- The text that an item gives as a key.  Octets serve as a key too, except as the first
one of a map. -/
def keyOfItem (isFirst : Bool) : Item → Except Fault String
  | .bin content => if isFirst then .error .invalidType else Item.asText (.bin content)
  | item => item.asText

mutual

/-- The value of an item. -/
def ofItem : Item → Except Fault Json
  | .nil => .ok null
  | .bool value => .ok (bool value)
  | .int _ value => .ok (int value)
  | .float32 bits => .ok (ofFloat (Binary64.ofBinary32 bits))
  | .float64 value => .ok (ofFloat value)
  | .str value => .ok (str value)
  | .bin _ | .ext _ _ => .error .invalidType
  | .arr items => (ofItems items).map arr
  | .map entries => (ofEntries true entries).map object

/-- The values of items. -/
def ofItems : List Item → Except Fault (List Json)
  | [] => .ok []
  | item :: items => do
    let value ← ofItem item
    let values ← ofItems items
    pure (value :: values)

/-- The members of entries. -/
def ofEntries (isFirst : Bool) : List (Item × Item) → Except Fault (List (String × Json))
  | [] => .ok []
  | (key, item) :: entries => do
    let key ← keyOfItem isFirst key
    let value ← ofItem item
    let members ← ofEntries false entries
    pure ((key, value) :: members)

end

/-! ### Straight from octets -/

/-- A reader of some leading octets. -/
abbrev Unpacker (α : Type) := Bytes → Except Fault (α × Bytes)

/-- Something read, or a malformed document. -/
def orMalformed {α : Type} : Option α → Except Fault α
  | some a => .ok a
  | none => .error .malformed

/-- A text of known length. -/
def unpackText (length : Nat) : Unpacker String := fun bs => do
  let (field, bs) ← orMalformed (Bytes.take? length bs)
  let s ← orMalformed (Utf8.decode? field)
  pure (s, bs)

/-- How what lies inside an array or an object is read, and whether it may nest itself. -/
structure Interior where
  mayNest : Bool
  value : Unpacker Json

/-- Whether a head opens an item that counts as nested. -/
def opensItem : Head → Bool
  | .arr _ | .map _ | .ext _ => true
  | _ => false

/-- The text that octets give as a key.  Plain octets serve as a key too, except as the first
one of a map.  A nested item is no key, and malformed where nothing may nest. -/
def unpackKey (mayNest isFirst : Bool) : Unpacker String := fun bs => do
  let (head, bs) ← orMalformed (Head.read? bs)
  match head with
  | .str n => unpackText n bs
  | .bin n =>
    let (field, bs) ← orMalformed (Bytes.take? n bs)
    if isFirst then .error .invalidType
    else
      match Utf8.decode? field with
      | some s => pure (s, bs)
      | none => .error .invalidValue
  | head => .error (if opensItem head && !mayNest then .malformed else .invalidType)

/-- As many values as told. -/
def unpackItems (value : Unpacker Json) : (count : Nat) → Unpacker (List Json)
  | 0, bs => .ok ([], bs)
  | count + 1, bs => do
    let (item, bs) ← value bs
    let (items, bs) ← unpackItems value count bs
    pure (item :: items, bs)

/-- As many members as told. -/
def unpackMembers (interior : Interior) (isFirst : Bool) :
    (count : Nat) → Unpacker (List (String × Json))
  | 0, bs => .ok ([], bs)
  | count + 1, bs => do
    let (key, bs) ← unpackKey interior.mayNest isFirst bs
    let (item, bs) ← interior.value bs
    let (members, bs) ← unpackMembers interior false count bs
    pure ((key, item) :: members, bs)

/-- The value behind a head.  What lies inside arrays and maps is read as told, if items
may nest that deep at all. -/
def unpackBody (inner : Option Interior) (head : Head) : Unpacker Json := fun bs =>
  match head, inner with
  | .nil, _ => .ok (null, bs)
  | .bool value, _ => .ok (bool value, bs)
  | .int _ value, _ => .ok (int value, bs)
  | .float32 bits, _ => .ok (ofFloat (Binary64.ofBinary32 bits), bs)
  | .float64 value, _ => .ok (ofFloat value, bs)
  | .str n, _ => do
    let (s, bs) ← unpackText n bs
    pure (str s, bs)
  | .bin n, _ => do
    let _ ← orMalformed (Bytes.take? n bs)
    .error .invalidType
  | .ext _, some _ => .error .invalidType
  | .arr n, some interior => do
    let (items, bs) ← unpackItems interior.value n bs
    pure (arr items, bs)
  | .map n, some interior => do
    let (members, bs) ← unpackMembers interior true n bs
    pure (object members, bs)
  | .ext _, none | .arr _, none | .map _, none => .error .malformed

/-- The value at the front of octets, if its items nest at most `depth` deep. -/
def unpackValue : (depth : Nat) → Unpacker Json
  | 0, bs => do
    let (head, bs) ← orMalformed (Head.read? bs)
    unpackBody none head bs
  | depth + 1, bs => do
    let (head, bs) ← orMalformed (Head.read? bs)
    unpackBody (some ⟨depth != 0, unpackValue depth⟩) head bs

/-- The value of a document; octets after it are ignored. -/
def unpack (bs : Bytes) : Except Fault Json :=
  (unpackValue maxNesting bs).map Prod.fst

end Json

end CodeGraph
