import CodeGraph.Bytes

/-!
# UTF-8

Text on the wire is UTF-8.  `Utf8.encode` and `Utf8.decode?` convert whole strings;
`Utf8.decodeLossy` reads any octets, putting U+FFFD for every maximal run of octets
that begins a character but does not complete it.
-/

namespace CodeGraph.Utf8

/-- The octets of a string. -/
def encode (s : String) : Bytes :=
  s.toByteArray.data.toList

/-- The string with the given octets, if they are well formed. -/
def decode? (bs : Bytes) : Option String :=
  String.fromUTF8? ⟨bs.toArray⟩

/-- Decoding undoes encoding. -/
theorem decode?_encode (s : String) : decode? (encode s) = some s := by
  have h : (⟨(encode s).toArray⟩ : ByteArray) = s.toByteArray := by
    simp [encode]
  simp only [decode?, h, String.fromUTF8?, dif_pos s.isValidUTF8]
  rfl

/-- The number of octets of a character. -/
def width (c : Char) : Nat :=
  c.utf8Size

/-! ### Reading damaged text -/

/-- An octet that continues a character. -/
def isTail (b : UInt8) : Bool :=
  0x80 ≤ b && b ≤ 0xBF

/-- How many octets follow the leading octet `b`, and the range of the first of them. -/
def lead? (b : UInt8) : Option (Nat × UInt8 × UInt8) :=
  if 0xC2 ≤ b && b ≤ 0xDF then some (1, 0x80, 0xBF)
  else if b == 0xE0 then some (2, 0xA0, 0xBF)
  else if b == 0xED then some (2, 0x80, 0x9F)
  else if 0xE1 ≤ b && b ≤ 0xEF then some (2, 0x80, 0xBF)
  else if b == 0xF0 then some (3, 0x90, 0xBF)
  else if 0xF1 ≤ b && b ≤ 0xF3 then some (3, 0x80, 0xBF)
  else if b == 0xF4 then some (3, 0x80, 0x8F)
  else none

/-- How many of the next octets belong to the character that `b` begins: at most the
number its leading octet announces, and only as long as they can continue it. -/
def tailLength (b : UInt8) (rest : Bytes) : Nat :=
  match lead? b, rest with
  | some (n, lo, hi), first :: more =>
    if lo ≤ first && first ≤ hi then 1 + ((more.take (n - 1)).takeWhile isTail).length else 0
  | _, _ => 0

/-- The characters of a byte string, U+FFFD standing for each maximal broken beginning of
a character and for each octet that begins none. -/
def lossyChars : Bytes → List Char
  | [] => []
  | b :: rest =>
    if b < 0x80 then Char.ofNat b.toNat :: lossyChars rest
    else
      let n := tailLength b rest
      let c := match decode? (b :: rest.take n) with
        | some s => s.toList.headD '\uFFFD'
        | none => '\uFFFD'
      c :: lossyChars (rest.drop n)
termination_by bs => bs.length
decreasing_by all_goals (simp only [List.length_cons, List.length_drop]; omega)

/-- Text with every broken part replaced. -/
def decodeLossy (bs : Bytes) : String :=
  String.ofList (lossyChars bs)

end CodeGraph.Utf8
