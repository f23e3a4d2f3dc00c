import CodeGraph.Bytes
import CodeGraph.Decimal.Binary64

/-!
# Heads of MessagePack items

Every item of a MessagePack document begins with a head: it tells the kind of the item
and holds small values whole; texts, arrays and maps announce their length in it.

Integers come in eight forms, by width and by the presence of a sign.  `IntForm.shortest`
is the form that takes the fewest octets, and lengths are always written shortest.
-/

namespace CodeGraph.Pack

/-- The form of an integer: its width in bits, unsigned or signed. -/
inductive IntForm where
  | u8
  | u16
  | u32
  | u64
  | i8
  | i16
  | i32
  | i64
deriving DecidableEq, Repr

/-- The form in which an integer takes the fewest octets. -/
def IntForm.shortest : Int → IntForm
  | .ofNat n =>
    if n < 0x100 then .u8 else if n < 0x10000 then .u16
    else if n < 0x100000000 then .u32 else .u64
  | .negSucc n =>
    if n < 0x80 then .i8 else if n < 0x8000 then .i16
    else if n < 0x80000000 then .i32 else .i64

/-- The widest form for an integer of its sign. -/
def IntForm.widest : Int → IntForm
  | .ofNat _ => .u64
  | .negSucc _ => .i64

/-- What the first octets of an item tell. -/
inductive Head where
  | nil
  | bool (value : Bool)
  | int (form : IntForm) (value : Int)
  | float32 (bits : UInt32)
  | float64 (value : Binary64)
  | str (length : Nat)
  | bin (length : Nat)
  | arr (count : Nat)
  | map (count : Nat)
  | ext (length : Nat)

/-! ### Writing -/

/-- An octet and a word of the given width. -/
def marked (mark : UInt8) (width n : Nat) : Bytes :=
  mark :: Bytes.ofNatBE width n

/-- The octets of a signed word. -/
def markedSigned (mark : UInt8) (width : Nat) (n : Int) : Bytes :=
  marked mark width (n % Bytes.bound width).toNat

/-- A length as the shortest of three marks and words. -/
def markedLength (mark8 mark16 mark32 : UInt8) (n : Nat) : Bytes :=
  if n < 0x100 then marked mark8 1 n
  else if n < 0x10000 then marked mark16 2 n
  else marked mark32 4 n

/-- The octets of an integer in a form. -/
def writeInt (form : IntForm) (n : Int) : Bytes :=
  match form with
  | .u8 => if n < 0x80 then [UInt8.ofNat n.toNat] else marked 0xcc 1 n.toNat
  | .u16 => marked 0xcd 2 n.toNat
  | .u32 => marked 0xce 4 n.toNat
  | .u64 => marked 0xcf 8 n.toNat
  | .i8 => if -32 ≤ n ∧ n < 0 then [UInt8.ofNat (n + 256).toNat] else markedSigned 0xd0 1 n
  | .i16 => markedSigned 0xd1 2 n
  | .i32 => markedSigned 0xd2 4 n
  | .i64 => markedSigned 0xd3 8 n

/-- The octets of a head. -/
def Head.write : Head → Bytes
  | nil => [0xc0]
  | bool value => [if value then 0xc3 else 0xc2]
  | int form value => writeInt form value
  | float32 bits => marked 0xca 4 bits.toNat
  | float64 value => marked 0xcb 8 value.bits.toNat
  | str n => if n < 32 then [UInt8.ofNat (0xa0 + n)] else markedLength 0xd9 0xda 0xdb n
  | bin n => markedLength 0xc4 0xc5 0xc6 n
  | arr n =>
    if n < 16 then [UInt8.ofNat (0x90 + n)]
    else if n < 0x10000 then marked 0xdc 2 n else marked 0xdd 4 n
  | map n =>
    if n < 16 then [UInt8.ofNat (0x80 + n)]
    else if n < 0x10000 then marked 0xde 2 n else marked 0xdf 4 n
  | ext n => markedLength 0xc7 0xc8 0xc9 n

/-! ### Reading -/

/-- A word of the given width. -/
def word? (width : Nat) (bs : Bytes) : Option (Nat × Bytes) :=
  (Bytes.take? width bs).map fun (field, rest) => (Bytes.toNatBE field, rest)

/-- A signed word of the given width. -/
def signedWord? (width : Nat) (bs : Bytes) : Option (Int × Bytes) :=
  (word? width bs).map fun (n, rest) =>
    (if 2 * n < Bytes.bound width then (n : Int) else n - Bytes.bound width, rest)

/-- The head that begins with a mark between `0xc0` and `0xdf`. -/
def Head.readMarked? (mark : Nat) (bs : Bytes) : Option (Head × Bytes) :=
  let unsigned (form : IntForm) (width : Nat) :=
    (word? width bs).map fun (n, rest) => (Head.int form n, rest)
  let signed (form : IntForm) (width : Nat) :=
    (signedWord? width bs).map fun (n, rest) => (Head.int form n, rest)
  let sized (head : Nat → Head) (width : Nat) :=
    (word? width bs).map fun (n, rest) => (head n, rest)
  match mark with
  | 0xc0 => some (nil, bs)
  | 0xc2 => some (bool false, bs)
  | 0xc3 => some (bool true, bs)
  | 0xc4 => sized bin 1
  | 0xc5 => sized bin 2
  | 0xc6 => sized bin 4
  | 0xc7 => sized ext 1
  | 0xc8 => sized ext 2
  | 0xc9 => sized ext 4
  | 0xca => (word? 4 bs).map fun (n, rest) => (float32 (UInt32.ofNat n), rest)
  | 0xcb => (word? 8 bs).map fun (n, rest) => (float64 ⟨UInt64.ofNat n⟩, rest)
  | 0xcc => unsigned .u8 1
  | 0xcd => unsigned .u16 2
  | 0xce => unsigned .u32 4
  | 0xcf => unsigned .u64 8
  | 0xd0 => signed .i8 1
  | 0xd1 => signed .i16 2
  | 0xd2 => signed .i32 4
  | 0xd3 => signed .i64 8
  | 0xd4 => some (ext 1, bs)
  | 0xd5 => some (ext 2, bs)
  | 0xd6 => some (ext 4, bs)
  | 0xd7 => some (ext 8, bs)
  | 0xd8 => some (ext 16, bs)
  | 0xd9 => sized str 1
  | 0xda => sized str 2
  | 0xdb => sized str 4
  | 0xdc => sized arr 2
  | 0xdd => sized arr 4
  | 0xde => sized map 2
  | 0xdf => sized map 4
  | _ => none

/-- The head at the front of octets. -/
def Head.read? : Bytes → Option (Head × Bytes)
  | [] => none
  | b :: bs =>
    let n := b.toNat
    if n < 0x80 then some (int .u8 n, bs)
    else if n < 0x90 then some (map (n - 0x80), bs)
    else if n < 0xa0 then some (arr (n - 0x90), bs)
    else if n < 0xc0 then some (str (n - 0xa0), bs)
    else if n < 0xe0 then readMarked? n bs
    else some (int .i8 (n - 256), bs)

end CodeGraph.Pack
