import CodeGraph.Blake3
import CodeGraph.Text.Utf8

/-!
# Node identifiers

A node is named by a string.  A canonical decimal that fits into sixteen octets stands for
that number; every other string stands for the first sixteen octets of its BLAKE3 digest.
-/

namespace CodeGraph

/-- How many identifiers there are: as many as there are numbers of 128 bits. -/
def NodeId.bound : Nat := Bytes.bound 16

/-- A 128-bit identifier. -/
structure NodeId where
  toNat : Nat
  toNat_lt : toNat < NodeId.bound
deriving DecidableEq

namespace NodeId

instance : Inhabited NodeId := ⟨⟨0, by decide⟩⟩

instance : Ord NodeId := ⟨compareOn NodeId.toNat⟩

instance : Std.TransOrd NodeId :=
  inferInstanceAs (Std.TransCmp (compareOn NodeId.toNat))

@[ext] theorem ext {a b : NodeId} (h : a.toNat = b.toNat) : a = b := by
  cases a; cases b; simp_all

instance : Std.LawfulEqOrd NodeId where
  eq_of_compare {a b} h := by
    have : compare a.toNat b.toNat = .eq := h
    exact NodeId.ext (Std.LawfulEqOrd.eq_of_compare this)

/-- The identifier with the given low 128 bits. -/
def ofNat (n : Nat) : NodeId :=
  ⟨n % bound, Nat.mod_lt _ (by decide)⟩

/-- The decimal text of an identifier. -/
def text (id : NodeId) : String :=
  toString id.toNat

instance : ToString NodeId := ⟨text⟩

/-! ### Decimal numerals -/

/-- Whether a character is a decimal digit. -/
def isDigit (c : Char) : Bool :=
  '0' ≤ c && c ≤ '9'

/-- The number written by decimal digits. -/
def digitsValue (cs : List Char) : Nat :=
  cs.foldl (fun n c => n * 10 + (c.toNat - 48)) 0

/-- The number written by a numeral: digits after an optional plus sign, leading zeros
allowed, of a number that fits into 128 bits. -/
def numeral? (s : String) : Option NodeId :=
  let cs := match s.toList with
    | '+' :: cs => cs
    | cs => cs
  if cs ≠ [] ∧ cs.all isDigit then
    if h : digitsValue cs < bound then some ⟨digitsValue cs, h⟩ else none
  else none

/-- The number of a canonical decimal: a numeral that is the text of its own value. -/
def canonical? (s : String) : Option NodeId :=
  (numeral? s).filter fun id => id.text = s

/-- Whether a string is a canonical decimal. -/
def isNumeric (s : String) : Bool :=
  (canonical? s).isSome

/-! ### Names -/

/-- The first 128 bits of the digest of a string, read little-endian. -/
def ofDigest (s : String) : NodeId :=
  ofNat (Bytes.toNatLE ((Blake3.hash (Utf8.encode s)).take 16))

/-- The identifier that a string stands for. -/
def parse (s : String) : NodeId :=
  (canonical? s).getD (ofDigest s)

end NodeId

end CodeGraph
