/-!
# Bytes

Byte strings are lists of octets.  The two word orders used by the formats of this
library are given as structural functions, so that a word written with a width reads
back from that width:

* `Bytes.toNatLE_ofNatLE` : reading a little-endian word gives the number written;
* `Bytes.take?_append` : a field of known length is split off whatever follows it.
-/

namespace CodeGraph

/-- A byte string. -/
abbrev Bytes := List UInt8

namespace Bytes

/-- The `width` low octets of a number, least significant first. -/
def ofNatLE : (width : Nat) → Nat → Bytes
  | 0, _ => []
  | width + 1, n => UInt8.ofNat n :: ofNatLE width (n / 256)

/-- The number whose octets are given, least significant first. -/
def toNatLE : Bytes → Nat
  | [] => 0
  | b :: bs => b.toNat + 256 * toNatLE bs

/-- The `width` low octets of a number, most significant first. -/
def ofNatBE (width n : Nat) : Bytes :=
  (ofNatLE width n).reverse

/-- The number whose octets are given, most significant first. -/
def toNatBE (bs : Bytes) : Nat :=
  toNatLE bs.reverse

/-- How many numbers fit into `width` octets. -/
def bound : (width : Nat) → Nat
  | 0 => 1
  | width + 1 => 256 * bound width

/-- The first `n` octets and the rest; `none` when there are fewer. -/
def take? (n : Nat) (bs : Bytes) : Option (Bytes × Bytes) :=
  let head := bs.take n
  if head.length = n then some (head, bs.drop n) else none

/-! ### Widths and round trips -/

@[simp] theorem length_ofNatLE (width n : Nat) : (ofNatLE width n).length = width := by
  induction width generalizing n with
  | zero => rfl
  | succ width ih => simp [ofNatLE, ih]

@[simp] theorem length_ofNatBE (width n : Nat) : (ofNatBE width n).length = width := by
  simp [ofNatBE]

/-- A number that fits into `width` octets is recovered from them, least significant
first. -/
theorem toNatLE_ofNatLE {width n : Nat} (h : n < bound width) :
    toNatLE (ofNatLE width n) = n := by
  induction width generalizing n with
  | zero =>
    obtain rfl : n = 0 := Nat.lt_one_iff.1 h
    rfl
  | succ width ih =>
    have hdiv : n / 256 < bound width := Nat.div_lt_of_lt_mul h
    simp only [ofNatLE, toNatLE, ih hdiv, UInt8.toNat_ofNat']
    omega

/-- A number that fits into `width` octets is recovered from them, most significant
first. -/
theorem toNatBE_ofNatBE {width n : Nat} (h : n < bound width) :
    toNatBE (ofNatBE width n) = n := by
  simp [toNatBE, ofNatBE, toNatLE_ofNatLE h]

/-- Splitting off a field of the announced length leaves what follows it. -/
theorem take?_append (field rest : Bytes) :
    take? field.length (field ++ rest) = some (field, rest) := by
  simp [take?]

/-- A successful split loses nothing. -/
theorem append_of_take? {n : Nat} {bs head rest : Bytes} (h : take? n bs = some (head, rest)) :
    head ++ rest = bs ∧ head.length = n := by
  simp only [take?] at h
  split at h
  · next hlen =>
    simp only [Option.some.injEq, Prod.mk.injEq] at h
    obtain ⟨rfl, rfl⟩ := h
    exact ⟨List.take_append_drop n bs, hlen⟩
  · simp at h

end Bytes

end CodeGraph
